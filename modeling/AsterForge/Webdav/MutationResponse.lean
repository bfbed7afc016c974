import AsterForge.Webdav.CanonicalPath
import AsterForge.Webdav.MutationBudget
import AsterForge.Webdav.PropertyElements

/-!
# The response to a recursive mutation

A request that did nothing but fail on its own target is answered with that failure.  Other failures, and a
stop after some work was done, are listed in a Multi-Status response.

* **`succeeds_iff`** — which outcomes are answered as a success.
* **`recursive_mutation_bounded`** — the budget of every execution, its end, and its answer.
-/

namespace AsterForge.Webdav

open AsterForge.Core Library Xml

/-! ## Responses -/

inductive DavResponseBody
  | empty
  | bytes (content : List UInt8)
  deriving DecidableEq

/-- Status, headers, and body. -/
structure DavResponse where
  status : ℕ
  headers : List (Text × Text)
  body : DavResponseBody
  deriving DecidableEq

def contentTypeXml : Text × Text := ("content-type".toList, "application/xml; charset=utf-8".toList)

def cacheControlNoStore : Text × Text := ("cache-control".toList, "no-store".toList)

def DavResponse.ofEmpty (status : ℕ) : DavResponse := ⟨status, [], .empty⟩

def noStoreEmptyResponse (status : ℕ) : DavResponse := ⟨status, [cacheControlNoStore], .empty⟩

def DavXmlElement.toBytes (render : Rendering) (element : DavXmlElement) :
    Except DavXmlError (List UInt8) := do
  let writer ← (XmlStreamWriter.withOptions render ([] : List UInt8) .new).mapError mapForgeXmlError
  match writeElement render .empty element writer with
  | (.error error, _) => .error (mapForgeXmlError error)
  | (.ok _, writer) => writer.finish.mapError mapForgeXmlError

def xmlDocumentResponse (render : Rendering) (status : ℕ) (root : DavXmlElement) :
    Except DavXmlError DavResponse := do
  let body ← root.toBytes render
  return ⟨status, contentTypeXml :: (if 400 ≤ status ∧ status < 600 then [cacheControlNoStore] else []),
    .bytes body⟩

def errorConditionElement (condition : DavErrorCondition) : DavXmlElement :=
  match errorConditionParts condition with
  | (name, some href) => (davElement name).push (davTextElement "href".toList href).node
  | (name, none) => davElement name

def davErrorElement (condition : DavErrorCondition) : DavXmlElement :=
  ((davElement "error".toList).withAttribute "xmlns:D".toList davNamespace).push
    (errorConditionElement condition).node

/-! ## Failures -/

def DavMutationFailure.toMultistatusItem (mount : Text) (failure : DavMutationFailure) :
    DavMultiStatusItem where
  href := hrefForDavPath mount failure.path
  status := some failure.status
  propstats := []
  error :=
    if failure.status = 423 then
      some (.lockTokenSubmitted (hrefForDavPath mount (failure.lockPath.getD failure.path)))
    else none

inductive DavMutationComposeError
  | multiStatus (error : DavMultiStatusError DavBackendError)
  | xml (error : DavXmlError)
  deriving DecidableEq

section

variable (wording : Wording) (mount : Text)

def mutationMultistatusResponseWithLimits (failures : List DavMutationFailure)
    (limits : DavMultiStatusLimits) : Except (DavMultiStatusError DavBackendError) DavResponse := do
  let body ← davMultistatusBytes wording (failures.map fun failure => failure.toMultistatusItem mount) limits
  return ⟨207, [contentTypeXml, cacheControlNoStore], .bytes body⟩

def stopStatus : DavMutationStop → ℕ
  | .cancelled => 503
  | .backend => 500
  | .insufficientStorage => 507

def directFailureResponse (failure : DavMutationFailure) : Except DavMutationComposeError DavResponse :=
  let status := if IsStatusCode failure.status then failure.status else 500
  match failure.lockPath with
  | some lockPath =>
    (xmlDocumentResponse wording.render status
      (davErrorElement (.lockTokenSubmitted (hrefForDavPath mount lockPath)))).mapError .xml
  | none => .ok (noStoreEmptyResponse status)

def requestFailure (outcome : DavMutationOutcome) : Option DavMutationFailure :=
  match outcome.failures with
  | [failure] =>
    if outcome.progress.completedMutations = 0 ∧ outcome.stop = none ∧ failure.path = outcome.requestTarget
    then some failure
    else none
  | _ => none

def listedFailures (outcome : DavMutationOutcome) : List DavMutationFailure :=
  match outcome.stop with
  | some stop =>
    if outcome.failures.any fun failure =>
      failure.path = outcome.requestTarget && failure.status = stopStatus stop
    then outcome.failures
    else outcome.failures ++ [⟨outcome.requestTarget, stopStatus stop, none⟩]
  | none => outcome.failures

def mutationOutcomeResponse (outcome : DavMutationOutcome) (limits : DavMultiStatusLimits) :
    Except DavMutationComposeError DavResponse :=
  match requestFailure outcome with
  | some failure => directFailureResponse wording mount failure
  | none =>
    if outcome.failures ≠ [] ∨ (outcome.stop.isSome ∧ outcome.progress.completedMutations ≠ 0) then
      (mutationMultistatusResponseWithLimits wording mount (listedFailures outcome) limits).mapError
        .multiStatus
    else
      match outcome.stop with
      | some stop => .ok (.ofEmpty (stopStatus stop))
      | none =>
        match outcome.operation with
        | .delete => .ok (.ofEmpty 204)
        | .copy | .move => .ok (noStoreEmptyResponse (if outcome.destinationExisted then 204 else 201))

end

/-! ## Successes -/

def IsSuccess (status : ℕ) : Prop := 200 ≤ status ∧ status < 300 ∧ status ≠ 207
  deriving Decidable

section

variable {w : Wording} {m : Text} {o : DavMutationOutcome} {l : DavMultiStatusLimits}

def Succeeds (wording : Wording) (mount : Text) (limits : DavMultiStatusLimits)
    (outcome : DavMutationOutcome) : Prop :=
  ∃ response, mutationOutcomeResponse wording mount outcome limits = .ok response ∧ IsSuccess response.status

lemma not_succeeds_multistatus {f : List DavMutationFailure} {r : DavResponse}
    (h : (mutationMultistatusResponseWithLimits w m f l).mapError
      DavMutationComposeError.multiStatus = .ok r) : ¬ IsSuccess r.status := by
  obtain ⟨b, -, hr⟩ := bind_eq_ok.mp (except_mapError_eq_ok.mp h)
  cases hr
  exact fun hs => hs.2.2 rfl

lemma direct_succeeds_iff {f : DavMutationFailure} (hl : f.lockPath.isSome → f.status = 423) :
    (∃ r, directFailureResponse w m f = .ok r ∧ IsSuccess r.status) ↔ IsSuccess f.status := by
  have hcode : IsSuccess (if IsStatusCode f.status then f.status else 500) ↔ IsSuccess f.status := by
    split
    · exact Iff.rfl
    · simp only [IsSuccess, IsStatusCode] at *
      omega
  unfold directFailureResponse
  cases hpath : f.lockPath with
  | none => simpa [noStoreEmptyResponse] using hcode
  | some lp =>
    rw [hl (by rw [hpath]; rfl)]
    constructor
    · rintro ⟨r, hr, hs⟩
      obtain ⟨b, -, hr⟩ := bind_eq_ok.mp (except_mapError_eq_ok.mp hr)
      cases hr
      exact hs
    · intro hs
      exact absurd hs (by decide)

/-- **Which outcomes are answered as a success**: those without failure and stop, and the failure of the
request target itself, done nothing else, to which a success status was given. -/
theorem succeeds_iff (hl : ∀ f ∈ o.failures, f.lockPath.isSome → f.status = 423) :
    Succeeds w m l o ↔ (o.failures = [] ∧ o.stop = none) ∨
      ∃ f, requestFailure o = some f ∧ IsSuccess f.status := by
  unfold Succeeds mutationOutcomeResponse
  cases hreq : requestFailure o with
  | some f =>
    have hf : o.failures = [f] := by
      unfold requestFailure at hreq
      split at hreq
      · split at hreq
        · rwa [← Option.some.inj hreq]
        · cases hreq
      · cases hreq
    simp [direct_succeeds_iff (hl f (by simp [hf])), hf]
  | none =>
    simp only [reduceCtorEq, false_and, exists_false, or_false]
    split
    · rename_i hlisted
      constructor
      · rintro ⟨r, hr, hs⟩
        exact absurd hs (not_succeeds_multistatus hr)
      · rintro ⟨hf, hst⟩
        simp [hf, hst] at hlisted
    · rename_i hunlisted
      have hf : o.failures = [] := by
        by_contra hsome
        exact hunlisted (.inl hsome)
      cases o.stop with
      | some s => cases s <;> simp [DavResponse.ofEmpty, stopStatus, IsSuccess]
      | none =>
        cases o.operation <;> cases o.destinationExisted <;>
          simp [hf, DavResponse.ofEmpty, noStoreEmptyResponse, IsSuccess]

end

/-! ## Executions -/

/-- **The budget of every execution, its end and its answer.**  Whatever the ports answer, each round starts
within the budget and visits no deeper than it may, and the run ends; so does the reading of a directory.
The outcome has the failures and the commands that were counted, and is answered as a success where nothing
failed or stopped, or where the only failure is the request target's and has a success status. -/
theorem recursive_mutation_bounded {σ κ : Type} [DecidableEq κ] (request : DavMutationRequest)
    (enumerator : DavDirectoryEnumerator σ κ) (port : DavMutationPort σ) (cancellation : DavCancellation σ)
    (executorLimits : DavMutationExecutorLimits) (world : σ) (wording : Wording) (mount : Text)
    (limits : DavMultiStatusLimits) :
    let context := requestContext request enumerator port cancellation executorLimits
    let report := executeRecursiveMutation request enumerator port cancellation executorLimits world
    (∀ budget root rounds, DavTraversalBudget.new executorLimits.traversal = .ok budget →
      rootWork request = some root →
      let run := context.loop rounds (initialRun world budget root)
      WithinBudget executorLimits.traversal run ∧ (∀ next, context.step run = some next →
          next.budget.progress.visitedResources ≠ run.budget.progress.visitedResources →
          ∃ item rest depth, run.work = item :: rest ∧ item.visitDepth = some depth ∧
            ∀ maximum ∈ executorLimits.traversal.maximumDepth, depth ≤ maximum) ∧
        (context.maximumRounds ≤ rounds → context.step run = none)) ∧
    (∀ path world fuel, executorLimits.directoryPages.maximumPages < fuel →
      context.readPages path fuel .new [] world = context.readChildren world path) ∧
    report.outcome.failures.length = report.outcome.progress.failures ∧
    report.outcome.progress.completedMutations = min (report.events.countP MutationEvent.succeeded) usizeMax ∧
    (Succeeds wording mount limits report.outcome ↔
      (report.outcome.failures = [] ∧ report.outcome.stop = none) ∨
        ∃ failure, requestFailure report.outcome = some failure ∧ IsSuccess failure.status) := by
  intro context report
  have hloop : ∀ {budget} root rounds, DavTraversalBudget.new executorLimits.traversal = .ok budget →
      ∃ v work, Accounted executorLimits.traversal v work
        (context.loop rounds (initialRun world budget root)) := by
    intro budget root rounds hb
    refine MutationContext.loop_keeps (I := fun run => ∃ v work,
      Accounted executorLimits.traversal v work run) ?_ rounds ⟨_, _, accounted_initialRun hb world root⟩
    rintro run next ⟨v, work, ha⟩ hs
    exact ha.step_some hs
  refine ⟨?_, ?_, ?_⟩
  · intro budget root rounds hb hrt run
    obtain ⟨v, work, ha⟩ := hloop root rounds hb
    refine ⟨ha.toWithinBudget, fun next hs hc => ha.visit_within hs hc, ?_⟩
    intro hr
    exact loop_ends (accounted_initialRun hb world root) (lt_of_lt_of_le (potential_root context root) hr)
  · intro path world fuel hf
    obtain ⟨m, rfl⟩ := Nat.exists_eq_add_of_lt hf
    rw [Nat.add_right_comm]
    have hlt : executorLimits.directoryPages.maximumPages <
        0 + (executorLimits.directoryPages.maximumPages + 1) := by omega
    exact readPages_fuel path m (Nat.zero_le _) hlt
  · have hexec : Executed request context world report :=
      executed request enumerator port cancellation executorLimits world
    clear_value report
    cases hexec with
    | refused stop => exact ⟨rfl, by simp, succeeds_iff (by simp)⟩
    | @ran budget root run hb hrt hrn =>
      obtain ⟨v, work, ha⟩ := hloop root context.maximumRounds hb
      rw [hrn] at ha
      exact ⟨ha.failures, ha.completed, succeeds_iff ha.locked⟩

namespace Script

/-- A DELETE of `/a`, which the port fails with the status of a success. -/
def refusedDeletion : MutationReport Script :=
  executeRecursiveMutation ⟨.delete, ⟨"/a"⟩, .file, none, none, false, true⟩ enumerator
    ⟨fun script command => (.error (.status command.source 204), script)⟩ cancellation limits ⟨[], []⟩

/-- Documents without content. -/
def blank : Wording := ⟨fun _ => [], fun _ => none⟩

end Script

/-- **A failure is answered as a success.** -/
theorem recursive_mutation_bounded_counterexample :
    Script.refusedDeletion.outcome.failures = [⟨⟨"/a"⟩, 204, none⟩] ∧
      Succeeds Script.blank "/dav".toList ⟨1024, 4, 4, 64⟩ Script.refusedDeletion.outcome :=
  ⟨by decide, noStoreEmptyResponse 204, by decide, by decide⟩

end AsterForge.Webdav
