import AsterForge.Windows.Completion
import AsterForge.Windows.ConnectionSession

/-!
# Requests of the platform

A fetch and a preflight are values that one party at a time owns, from the queue to the worker that
consumes them.  Every consuming method ends with the drop of the request, and the drop answers the platform
if nothing did before.  Other parties reach a fetch through its gate alone: a cancellation by the platform
and the watchdog exchange its value between any two steps of the owner.

* **`fetch_advance_cases`** — a step of a fetch's owner is quiet, an exchange at the gate, or a native
  operation.
* `FetchSound` — what phase, gate and answers of a native fetch have to do with each other;
  **`FetchSound.advance`**, `FetchSound.cancel`, `FetchSound.timeOut` keep it.
* `PreflightSound` and **`PreflightSound.advance`** — the same for preflights.
* **`fetch_advance_rank`**, **`fetch_advance_enabled`** — the owner gets to the end.
-/

namespace AsterForge.Windows

open AsterForge.Core Library Option

/-- Whether a request answers the platform.  Detached ones are for tests of the orchestration. -/
inductive NativeCompletionAuthority
  | detached
  | native

/-! ## Fetches -/

/-- A completion that the gate is being won for.  `result` is what the method returns if the gate is lost or
the completing function succeeds, and `dropping` whether the method is the drop of the request. -/
structure PendingCompletion where
  completion : FetchCompletion
  result : Except WindowsCloudFilesError Unit
  dropping : Bool

inductive FetchStage
  /-- In the queue, or with a worker that has not called anything yet. -/
  | held
  /-- `hydrate`, before it looks at the gate for a cancellation by the platform. -/
  | checkingCancelled (revision : ContentRevision) (alignment : Core.Alignment)
  /-- Before it looks at the gate for the watchdog. -/
  | checkingTimedOut (revision : ContentRevision) (alignment : Core.Alignment)
  /-- Before it requests and registers a hydration waiter. -/
  | preparing (revision : ContentRevision) (alignment : Core.Alignment)
  | waiting (revision : ContentRevision)
  /-- The waiter has answered, and the gate is looked at for a cancellation by the platform. -/
  | resumedCancelled (revision : ContentRevision) (response : Except HydrationError ContentReadResponse)
  /-- And for the watchdog. -/
  | resumedTimedOut (revision : ContentRevision) (response : Except HydrationError ContentReadResponse)
  /-- In `begin_native`, before its next exchange. -/
  | beginning (pending : PendingCompletion) (attempt : GateAttempt)
  /-- The gate is won, and the completing function is called next. -/
  | executing (pending : PendingCompletion)
  /-- The consuming method is over, and the request is dropped. -/
  | dropping
  /-- The drop is over, and the lease of the request is dropped. -/
  | releasing
  | settled

/-- An accepted fetch.  Its answers, and whether an exchange for a cancellation by the platform succeeded at
its gate, are what is said about it. -/
structure WindowsFetchDataRequest where
  snapshot : WindowsFetchDataSnapshot
  lease : WindowsCallbackLease
  terminal : FetchTerminalState
  completionAuthority : NativeCompletionAuthority
  stage : FetchStage
  returned : Option (Except WindowsCloudFilesError Unit)
  answers : List CfOperation
  platformWon : Bool

namespace WindowsFetchDataRequest

def new (completionAuthority : NativeCompletionAuthority) (snapshot : WindowsFetchDataSnapshot)
    (lease : WindowsCallbackLease) : WindowsFetchDataRequest :=
  ⟨snapshot, lease, .pending, completionAuthority, .held, none, [], false⟩

variable (request : WindowsFetchDataRequest)

/-- The running method is over. -/
def finish (dropping : Bool) (result : Except WindowsCloudFilesError Unit) : WindowsFetchDataRequest :=
  if dropping then { request with stage := .releasing }
  else { request with stage := .dropping, returned := some result }

def unwind : WindowsFetchDataRequest := { request with stage := .dropping }

/-- `require_native`, and then `begin_native` for a completion. -/
def beginNative (pending : PendingCompletion) : WindowsFetchDataRequest :=
  match request.completionAuthority with
  | .detached => request.finish pending.dropping (.error .missingNativeCompletionAuthority)
  | .native => { request with stage := .beginning pending .fromPending }

def failInner (failure : WindowsFetchDataFailure) : WindowsFetchDataRequest :=
  request.beginNative ⟨.failure failure, .ok (), false⟩

def finishRequestError (error : WindowsCloudFilesError) : WindowsFetchDataRequest :=
  request.beginNative ⟨.failure error.failure, .error error, false⟩

def completeTransferInner (transfer : WindowsFetchDataTransfer) : WindowsFetchDataRequest :=
  request.beginNative ⟨.success transfer, .ok (), false⟩

def andThen {α : Type} (outcome : Outcome WindowsCloudFilesError α)
    (onError : WindowsCloudFilesError → WindowsFetchDataRequest) (onValue : α → WindowsFetchDataRequest) :
    WindowsFetchDataRequest :=
  match outcome with
  | .ok value => onValue value
  | .error error => onError error
  | .panicked => request.unwind

def completeInner (revision : ContentRevision) (response : ContentReadResponse) : WindowsFetchDataRequest :=
  if request.terminal = .nativeAttempted then request.finish false (.ok ())
  else
    request.andThen (WindowsFetchDataTransfer.fromResponse request.snapshot revision response)
      request.finishRequestError request.completeTransferInner

def restartHydration (replacement : WindowsRestartHydration) : WindowsFetchDataRequest :=
  match request.completionAuthority with
  | .detached => request.finish false (.error .missingNativeCompletionAuthority)
  | .native =>
    request.andThen (replacement.validateFor request.snapshot.info)
      (fun error => request.finish false (.error error))
      (fun _ => request.beginNative ⟨.restart replacement, .ok (), false⟩)

def drop : WindowsFetchDataRequest := request.beginNative ⟨.failure .providerTerminated, .ok (), true⟩

/-- One exchange of `begin_native`; the second one follows only a first that failed. -/
def exchange (pending : PendingCompletion) (attempt : GateAttempt) : WindowsFetchDataRequest :=
  match request.terminal.transition attempt.source .nativeAttempted with
  | (true, terminal) => { request with terminal, stage := .executing pending }
  | (false, _) =>
    match attempt with
    | .fromPending => { request with stage := .beginning pending .fromWatchdogTimedOut }
    | .fromWatchdogTimedOut => request.finish pending.dropping pending.result

/-- The completing function, whose native operation comes back with `native`. -/
def execute (pending : PendingCompletion) (native : Except ℤ Unit) : WindowsFetchDataRequest :=
  match pending.completion.operation request.snapshot with
  | .error error => request.finish pending.dropping (.error error)
  | .ok operation =>
    let answered := { request with answers := request.answers ++ [operation] }
    match native with
    | .ok () => answered.finish pending.dropping pending.result
    | .error code => answered.finish pending.dropping (.error (.native code))

/-- One exchange of `cancel_by_platform` at the gate of a request. -/
def cancelByPlatform (attempt : GateAttempt) : WindowsFetchDataRequest :=
  match request.terminal.transition attempt.source .platformCancelled with
  | (true, terminal) => { request with terminal, platformWon := true }
  | (false, _) => request

/-- The exchange of `cancel_by_watchdog`. -/
def cancelByWatchdog : WindowsFetchDataRequest :=
  { request with terminal := (request.terminal.transition .pending .watchdogTimedOut).2 }

end WindowsFetchDataRequest

inductive FetchMove
  /-- `fail`; the queue that has no room for a request, or no receiver, does this as well. -/
  | fail (failure : WindowsFetchDataFailure)
  | complete (revision : ContentRevision) (response : ContentReadResponse)
  | restart (replacement : WindowsRestartHydration)
  | hydrate (revision : ContentRevision) (alignment : Core.Alignment)
  /-- The request, or the future of `hydrate` that owns it, is dropped. -/
  | abandon
  /-- The next look at the gate, the next exchange, or the drop. -/
  | next
  /-- The hydration waiter is requested and registered, or one of the two fails. -/
  | prepare (failure : Option WindowsCloudFilesError)
  /-- The hydration waiter answers. -/
  | resolve (response : Except HydrationError ContentReadResponse)
  /-- The completing function, with what its native operation comes back with. -/
  | execute (native : Except ℤ Unit)

/-- The next step of the owner, or `none` when it cannot do this there. -/
def WindowsFetchDataRequest.advance (request : WindowsFetchDataRequest) (move : FetchMove) :
    Option WindowsFetchDataRequest :=
  match request.stage, move with
  | .held, .fail failure => some (request.failInner failure)
  | .held, .complete revision response => some (request.completeInner revision response)
  | .held, .restart replacement => some (request.restartHydration replacement)
  | .held, .hydrate revision alignment =>
    some { request with stage := .checkingCancelled revision alignment }
  | .held, .abandon => some request.unwind
  | .checkingCancelled revision alignment, .next =>
    if request.terminal = .platformCancelled then some (request.finish false (.ok ()))
    else some { request with stage := .checkingTimedOut revision alignment }
  | .checkingTimedOut revision alignment, .next =>
    if request.terminal = .watchdogTimedOut then
      some (request.finishRequestError .fetchDataWatchdogTimeout)
    else some { request with stage := .preparing revision alignment }
  | .preparing revision alignment, .prepare failure =>
    some (request.andThen (request.snapshot.hydrationRequest revision alignment)
      request.finishRequestError fun _ =>
        match failure with
        | some error => request.finishRequestError error
        | none => { request with stage := .waiting revision })
  | .waiting revision, .resolve response =>
    some { request with stage := .resumedCancelled revision response }
  | .waiting _, .abandon => some request.unwind
  | .resumedCancelled revision response, .next =>
    if request.terminal = .platformCancelled then some (request.finish false (.ok ()))
    else some { request with stage := .resumedTimedOut revision response }
  | .resumedTimedOut revision response, .next =>
    if request.terminal = .watchdogTimedOut then
      some (request.finishRequestError .fetchDataWatchdogTimeout)
    else
      match response with
      | .ok response =>
        some (request.andThen (WindowsFetchDataTransfer.fromResponse request.snapshot revision response)
          request.finishRequestError request.completeTransferInner)
      | .error error => some (request.finishRequestError (.hydration error))
  | .beginning pending attempt, .next => some (request.exchange pending attempt)
  | .executing pending, .execute native => some (request.execute pending native)
  | .dropping, .next => some request.drop
  | _, _ => none

/-! ## Preflights -/

inductive PreflightStage
  | held
  | dropping
  | releasing
  | settled
  deriving DecidableEq

structure WindowsPreflightRequest where
  snapshot : WindowsPreflightSnapshot
  lease : WindowsCallbackLease
  acknowledged : Bool
  completionAuthority : NativeCompletionAuthority
  stage : PreflightStage
  returned : Option (Except WindowsCloudFilesError Unit)
  answers : List CfOperation

/-- What the owner of a preflight does, with what the native operation comes back with. -/
inductive PreflightMove
  | approve (native : Except ℤ Unit)
  /-- `deny`; the queue that has no room for a request, or no receiver, does this as well. -/
  | deny (failure : WindowsFetchDataFailure) (native : Except ℤ Unit)
  /-- The request is dropped by its holder. -/
  | abandon
  /-- The drop. -/
  | drop (native : Except ℤ Unit)

namespace WindowsPreflightRequest

def new (completionAuthority : NativeCompletionAuthority) (snapshot : WindowsPreflightSnapshot)
    (lease : WindowsCallbackLease) : WindowsPreflightRequest :=
  ⟨snapshot, lease, false, completionAuthority, .held, none, []⟩

variable (request : WindowsPreflightRequest)

def acknowledgeInner (failure : WindowsFetchDataFailure) (approved : Bool) (native : Except ℤ Unit) :
    WindowsPreflightRequest × Except WindowsCloudFilesError Unit :=
  match request.completionAuthority with
  | .detached => (request, .error .missingNativeCompletionAuthority)
  | .native =>
    if request.acknowledged then (request, .ok ())
    else
      match completePreflight request.snapshot failure approved with
      | .error error => ({ request with acknowledged := true }, .error error)
      | .ok operation =>
        ({ request with acknowledged := true, answers := request.answers ++ [operation] },
          native.mapError .native)

/-- A consuming method: an acknowledgement, and then the drop. -/
def acknowledge (failure : WindowsFetchDataFailure) (approved : Bool) (native : Except ℤ Unit) :
    WindowsPreflightRequest :=
  let (request, result) := request.acknowledgeInner failure approved native
  { request with stage := .dropping, returned := some result }

/-- The next step of the owner, or `none` when it cannot do this there. -/
def advance (move : PreflightMove) : Option WindowsPreflightRequest :=
  match request.stage, move with
  | .held, .approve native => some (request.acknowledge .unsuccessful true native)
  | .held, .deny failure native => some (request.acknowledge failure false native)
  | .held, .abandon => some { request with stage := .dropping }
  | .dropping, .drop native =>
    some { (request.acknowledgeInner .providerTerminated false native).1 with stage := .releasing }
  | _, _ => none

end WindowsPreflightRequest

/-! ## What the owner of a fetch does -/

inductive FetchPhase
  | running
  /-- A first exchange of `begin_native` has failed. -/
  | second
  | executing
  | ended
  deriving DecidableEq

def FetchStage.phase : FetchStage → FetchPhase
  | beginning _ .fromWatchdogTimedOut => .second
  | executing _ => .executing
  | releasing | settled => .ended
  | held | checkingCancelled _ _ | checkingTimedOut _ _ | preparing _ _ | waiting _
  | resumedCancelled _ _ | resumedTimedOut _ _ | beginning _ .fromPending | dropping => .running

/-- A step that only moves the owner on, and a native fetch not to its end. -/
def Quiet (request request' : WindowsFetchDataRequest) : Prop :=
  ∃ stage returned, request' = { request with stage, returned } ∧ stage ≠ .settled ∧
    (request.completionAuthority = .native → stage.phase = .running)

section

variable {rq : WindowsFetchDataRequest}

lemma quiet_stage {stage : FetchStage} (hp : stage.phase = .running) : Quiet rq { rq with stage } := by
  refine ⟨stage, rq.returned, rfl, ?_, fun _ => hp⟩
  rintro rfl
  cases hp

lemma quiet_finish (r : Except WindowsCloudFilesError Unit) : Quiet rq (rq.finish false r) := by
  refine ⟨.dropping, some r, rfl, ?_, fun _ => rfl⟩
  intro h
  cases h

lemma quiet_unwind : Quiet rq rq.unwind := by
  have hphase : FetchStage.dropping.phase = .running := rfl
  exact quiet_stage hphase

lemma quiet_beginNative (pending : PendingCompletion) : Quiet rq (rq.beginNative pending) := by
  rw [WindowsFetchDataRequest.beginNative]
  split
  case h_1 hauth =>
    cases pending.dropping with
    | false => exact quiet_finish _
    | true =>
      refine ⟨.releasing, rq.returned, rfl, ?_, ?_⟩
      · nofun
      · rw [hauth]
        intro h
        cases h
  case h_2 => exact quiet_stage rfl

lemma quiet_andThen {α : Type} {o : Outcome WindowsCloudFilesError α}
    {oe : WindowsCloudFilesError → WindowsFetchDataRequest} {ov : α → WindowsFetchDataRequest}
    (he : ∀ e, Quiet rq (oe e)) (hv : ∀ v, Quiet rq (ov v)) : Quiet rq (rq.andThen o oe ov) := by
  cases o with
  | ok v => exact hv v
  | error e => exact he e
  | panicked => exact quiet_unwind

lemma quiet_completeInner (r : ContentRevision) (rs : ContentReadResponse) : Quiet rq (rq.completeInner r rs) := by
  rw [WindowsFetchDataRequest.completeInner]
  split_ifs
  · exact quiet_finish _
  · exact quiet_andThen (fun _ => quiet_beginNative _) (fun _ => quiet_beginNative _)

lemma quiet_restartHydration (r : WindowsRestartHydration) : Quiet rq (rq.restartHydration r) := by
  rw [WindowsFetchDataRequest.restartHydration]
  split
  · exact quiet_finish _
  · exact quiet_andThen (fun _ => quiet_finish _) (fun _ => quiet_beginNative _)

end

variable {request request' : WindowsFetchDataRequest}

/-- **What the owner of a fetch does** is quiet, an exchange at the gate, or the completion. -/
theorem fetch_advance_cases {move : FetchMove} (hm : request.advance move = some request') :
    (request.stage.phase = .running ∧ Quiet request request') ∨
      (∃ pending attempt, request.stage = .beginning pending attempt ∧
        request' = request.exchange pending attempt) ∨
      (∃ pending native, request.stage = .executing pending ∧ request' = request.execute pending native) := by
  have hquiet : ∀ {stage : FetchStage} {next : WindowsFetchDataRequest}, request.stage = stage →
      stage.phase = .running → Quiet request next → some next = some request' →
      request.stage.phase = .running ∧ Quiet request request' := by
    intro stage next hs hp hn hsm
    cases hsm
    exact ⟨hs ▸ hp, hn⟩
  unfold WindowsFetchDataRequest.advance at hm
  split at hm
  case h_1 hs => exact .inl (hquiet hs rfl (quiet_beginNative _) hm)
  case h_2 hs => exact .inl (hquiet hs rfl (quiet_completeInner _ _) hm)
  case h_3 hs => exact .inl (hquiet hs rfl (quiet_restartHydration _) hm)
  case h_4 hs => exact .inl (hquiet hs rfl (quiet_stage rfl) hm)
  case h_5 hs => exact .inl (hquiet hs rfl quiet_unwind hm)
  case h_6 hs =>
    split_ifs at hm
    · exact .inl (hquiet hs rfl (quiet_finish _) hm)
    · exact .inl (hquiet hs rfl (quiet_stage rfl) hm)
  case h_7 hs =>
    split_ifs at hm
    · exact .inl (hquiet hs rfl (quiet_beginNative _) hm)
    · exact .inl (hquiet hs rfl (quiet_stage rfl) hm)
  case h_8 failure hs =>
    refine .inl (hquiet hs rfl (quiet_andThen (fun _ => quiet_beginNative _) fun _ => ?_) hm)
    cases failure with
    | some error => exact quiet_beginNative _
    | none => exact quiet_stage rfl
  case h_9 hs => exact .inl (hquiet hs rfl (quiet_stage rfl) hm)
  case h_10 hs => exact .inl (hquiet hs rfl quiet_unwind hm)
  case h_11 hs =>
    split_ifs at hm
    · exact .inl (hquiet hs rfl (quiet_finish _) hm)
    · exact .inl (hquiet hs rfl (quiet_stage rfl) hm)
  case h_12 response hs =>
    split_ifs at hm
    · exact .inl (hquiet hs rfl (quiet_beginNative _) hm)
    · cases response with
      | ok response =>
        exact .inl (hquiet hs rfl
          (quiet_andThen (fun _ => quiet_beginNative _) fun _ => quiet_beginNative _) hm)
      | error error => exact .inl (hquiet hs rfl (quiet_beginNative _) hm)
  case h_13 pending attempt hs =>
    cases hm
    exact .inr (.inl ⟨pending, attempt, hs, rfl⟩)
  case h_14 pending native hs =>
    cases hm
    exact .inr (.inr ⟨pending, native, hs, rfl⟩)
  case h_15 hs => exact .inl (hquiet hs rfl (quiet_beginNative _) hm)
  case h_16 => cases hm

/-- What no step of the owner changes: the snapshot, the lease and the authority; and it does not settle the
request, which takes the drop of the lease. -/
theorem fetch_advance_frame {m : FetchMove} (hm : request.advance m = some request') :
    request'.snapshot = request.snapshot ∧ request'.lease = request.lease ∧
      request'.completionAuthority = request.completionAuthority ∧ request'.stage ≠ .settled := by
  have hfin : ∀ (b : WindowsFetchDataRequest) d r, (b.finish d r).snapshot =
      b.snapshot ∧ (b.finish d r).lease = b.lease ∧
      (b.finish d r).completionAuthority = b.completionAuthority ∧ (b.finish d r).stage ≠ .settled := by
    intro b d r
    cases d <;> (refine ⟨rfl, rfl, rfl, ?_⟩; intro h; cases h)
  rcases fetch_advance_cases hm with ⟨-, s, rt, rfl, hs, -⟩ | ⟨p, a, -, rfl⟩ | ⟨p, native, -, rfl⟩
  · exact ⟨rfl, rfl, rfl, hs⟩
  · rw [WindowsFetchDataRequest.exchange.eq_def]
    split
    · refine ⟨rfl, rfl, rfl, ?_⟩
      intro h
      cases h
    · cases a with
      | fromPending =>
        refine ⟨rfl, rfl, rfl, ?_⟩
        intro h
        cases h
      | fromWatchdogTimedOut => exact hfin _ _ _
  · rw [WindowsFetchDataRequest.execute]
    split
    · exact hfin _ _ _
    · cases native <;> exact hfin _ _ _

/-! ## One answer for a fetch -/

/-- What phase, gate and answers of a native fetch have to do with each other. -/
structure FetchSound (request : WindowsFetchDataRequest) : Prop where
  won : request.platformWon = true ↔ request.terminal = .platformCancelled
  unanswered : request.terminal ≠ .nativeAttempted → request.answers = []
  executing : request.stage.phase = .executing → request.terminal = .nativeAttempted ∧ request.answers = []
  atMostOne : request.answers.length ≤ 1
  answered : request.terminal = .nativeAttempted → request.stage.phase ≠ .executing →
    request.snapshot.Failable → request.answers.length = 1
  second : request.stage.phase = .second → request.terminal ≠ .pending
  ended : request.stage.phase = .ended → request.terminal.Decided

namespace FetchSound

variable {rs r' : WindowsFetchDataRequest}

lemma new (s : WindowsFetchDataSnapshot) (l : WindowsCallbackLease) : FetchSound (.new .native s l) where
  won := by simp [WindowsFetchDataRequest.new]
  unanswered _ := rfl
  executing h := by cases h
  atMostOne := Nat.zero_le _
  answered h := by cases h
  second h := by cases h
  ended h := by cases h

lemma restage (hw : rs.platformWon = true ↔ rs.terminal = .platformCancelled)
    (hu : rs.terminal ≠ .nativeAttempted → rs.answers = []) (hamo : rs.answers.length ≤ 1)
    (ha : rs.terminal = .nativeAttempted → rs.snapshot.Failable → rs.answers.length = 1)
    (stage : FetchStage) (returned : Option (Except WindowsCloudFilesError Unit))
    (hp : stage.phase = .running ∨ stage.phase = .ended ∧ rs.terminal.Decided) :
    FetchSound { rs with stage, returned } where
  won := hw
  unanswered := hu
  executing he := by
    rcases hp with hp | ⟨hp, -⟩ <;> cases hp.symm.trans he
  atMostOne := hamo
  answered hatt _ := ha hatt
  second hs := by
    rcases hp with hp | ⟨hp, -⟩ <;> cases hp.symm.trans hs
  ended hended := by
    rcases hp with hp | ⟨-, hd⟩
    · cases hp.symm.trans hended
    · exact hd

lemma quiet (h : FetchSound rs) (hn : rs.completionAuthority = .native)
    (hp : rs.stage.phase = .running) (hq : Quiet rs r') : FetchSound r' := by
  obtain ⟨s, r, rfl, -, hr⟩ := hq
  have hne : rs.stage.phase ≠ .executing := by
    rw [hp]
    decide
  exact restage h.won h.unanswered h.atMostOne (fun ha => h.answered ha hne) s r (.inl (hr hn))

lemma finish (hw : rs.platformWon = true ↔ rs.terminal = .platformCancelled)
    (hu : rs.terminal ≠ .nativeAttempted → rs.answers = []) (hamo : rs.answers.length ≤ 1)
    (ha : rs.terminal = .nativeAttempted → rs.snapshot.Failable → rs.answers.length = 1)
    (hd : rs.terminal.Decided) (dropping : Bool) (result : Except WindowsCloudFilesError Unit) :
    FetchSound (rs.finish dropping result) := by
  have hrestage := restage hw hu hamo ha
  cases dropping with
  | false => exact hrestage .dropping (some result) (.inl rfl)
  | true => exact hrestage .releasing rs.returned (.inr ⟨rfl, hd⟩)

lemma exchange (h : FetchSound rs) {p : PendingCompletion} {a : GateAttempt}
    (hs : rs.stage = .beginning p a) : FetchSound (rs.exchange p a) := by
  have hne : rs.stage.phase ≠ .executing := by
    rw [hs]
    cases a <;> (intro hex; cases hex)
  by_cases hsrc : rs.terminal = a.source
  · have hopen : rs.terminal ≠ .nativeAttempted ∧ rs.terminal ≠ .platformCancelled := by
      rw [hsrc]
      cases a <;> decide
    have hempty : rs.answers = [] := h.unanswered hopen.1
    have hnotWon : rs.platformWon ≠ true := mt h.won.mp hopen.2
    have hwin : rs.exchange p a = { rs with terminal := .nativeAttempted, stage := .executing p } := by
      simp only [WindowsFetchDataRequest.exchange, FetchTerminalState.transition, if_pos hsrc]
    rw [hwin]
    exact {
      won := ⟨fun hw => absurd hw hnotWon, by
        intro hc
        cases hc⟩
      unanswered := fun _ => hempty
      executing := fun _ => ⟨rfl, hempty⟩
      atMostOne := h.atMostOne
      answered := fun _ hp => absurd rfl hp
      second := by
        intro hsn
        cases hsn
      ended := by
        intro he
        cases he }
  · have hlose : rs.terminal.transition a.source .nativeAttempted = (false, rs.terminal) :=
      if_neg hsrc
    rw [WindowsFetchDataRequest.exchange.eq_def, hlose]
    cases a with
    | fromPending =>
      exact {
        won := h.won
        unanswered := h.unanswered
        executing := by
          intro hex
          cases hex
        atMostOne := h.atMostOne
        answered := fun ha _ => h.answered ha hne
        second := fun _ => hsrc
        ended := by
          intro he
          cases he }
    | fromWatchdogTimedOut =>
      have hpend : rs.terminal ≠ .pending := h.second (by rw [hs]; rfl)
      have hdecd : rs.terminal.Decided := by
        cases hterm : rs.terminal with
        | pending => exact absurd hterm hpend
        | watchdogTimedOut => exact absurd hterm hsrc
        | nativeAttempted => exact .inl rfl
        | platformCancelled => exact .inr rfl
      exact finish h.won h.unanswered h.atMostOne (fun ha => h.answered ha hne) hdecd _ _

lemma execute (h : FetchSound rs) {p : PendingCompletion} (hs : rs.stage = .executing p) (n : Except ℤ Unit) :
    FetchSound (rs.execute p n) := by
  obtain ⟨ha, he⟩ := h.executing (by rw [hs]; rfl)
  have hdecd : rs.terminal.Decided := .inl ha
  rw [WindowsFetchDataRequest.execute]
  split
  case h_1 error hop =>
    refine finish h.won h.unanswered h.atMostOne ?_ hdecd _ _
    intro _ hf
    obtain ⟨o, hok⟩ := operation_eq_ok hf p.completion
    rw [hok] at hop
    cases hop
  case h_2 o hop =>
    have hone : (rs.answers ++ [o]).length = 1 := by rw [he]; rfl
    have hfin := @finish { rs with answers := rs.answers ++ [o] }
      h.won (absurd ha) hone.le (fun _ _ => hone) hdecd p.dropping
    cases n with
    | ok => exact hfin _
    | error c => exact hfin _

/-- **Every step of the owner** keeps a native fetch sound. -/
theorem advance (h : FetchSound rs) (hn : rs.completionAuthority = .native) {m : FetchMove}
    (hm : rs.advance m = some r') : FetchSound r' := by
  rcases fetch_advance_cases hm with ⟨hp, hq⟩ | ⟨p, a, hs, rfl⟩ | ⟨p, native, hs, rfl⟩
  · exact h.quiet hn hp hq
  · exact h.exchange hs
  · exact h.execute hs native

/-- **A cancellation by the platform** wins a gate that is open, where nothing was answered. -/
theorem cancel (h : FetchSound rs) (a : GateAttempt) : FetchSound (rs.cancelByPlatform a) := by
  by_cases hsrc : rs.terminal = a.source
  · have hopen : ¬ rs.terminal.Decided := by
      rw [hsrc]
      cases a <;> (rintro (hd | hd) <;> cases hd)
    have hempty : rs.answers = [] := h.unanswered fun ha => hopen (.inl ha)
    have hwin : rs.cancelByPlatform a = { rs with terminal := .platformCancelled, platformWon := true } := by
      simp only [WindowsFetchDataRequest.cancelByPlatform, FetchTerminalState.transition, if_pos hsrc]
    rw [hwin]
    exact {
      won := ⟨fun _ => rfl, fun _ => rfl⟩
      unanswered := fun _ => hempty
      executing := fun he => absurd (.inl (h.executing he).1) hopen
      atMostOne := h.atMostOne
      answered := by
        intro ha
        cases ha
      second := by
        intro _ hp
        cases hp
      ended := fun _ => .inr rfl }
  · have hlose : rs.terminal.transition a.source .platformCancelled = (false, rs.terminal) :=
      if_neg hsrc
    rw [WindowsFetchDataRequest.cancelByPlatform, hlose]
    exact h

/-- **The watchdog** marks a gate that is pending. -/
theorem timeOut (h : FetchSound rs) : FetchSound rs.cancelByWatchdog := by
  by_cases hpend : rs.terminal = .pending
  · have hopen : ¬ rs.terminal.Decided := by
      rw [hpend]
      rintro (hd | hd) <;> cases hd
    have hempty : rs.answers = [] := h.unanswered fun ha => hopen (.inl ha)
    have hnotWon : rs.platformWon ≠ true := fun hw => hopen (.inr (h.won.mp hw))
    rw [WindowsFetchDataRequest.cancelByWatchdog, FetchTerminalState.transition, if_pos hpend]
    exact {
      won := ⟨fun hw => absurd hw hnotWon, by
        intro hc
        cases hc⟩
      unanswered := fun _ => hempty
      executing := fun hex => absurd (.inl (h.executing hex).1) hopen
      atMostOne := h.atMostOne
      answered := by
        intro ha
        cases ha
      second := by
        intro _ hs
        cases hs
      ended := fun he => absurd (h.ended he) hopen }
  · rw [WindowsFetchDataRequest.cancelByWatchdog, FetchTerminalState.transition, if_neg hpend]
    exact h

end FetchSound

/-! ## The owner gets to the end -/

/-- How many steps the owner of a fetch takes at most before its lease is dropped. -/
def FetchStage.rank : FetchStage → ℕ
  | settled => 0
  | releasing => 1
  | executing pending => if pending.dropping then 2 else 6
  | beginning pending .fromWatchdogTimedOut => if pending.dropping then 3 else 7
  | beginning pending .fromPending => if pending.dropping then 4 else 8
  | dropping => 5
  | resumedTimedOut _ _ => 9
  | resumedCancelled _ _ => 10
  | waiting _ => 11
  | preparing _ _ => 12
  | checkingTimedOut _ _ => 13
  | checkingCancelled _ _ => 14
  | held => 15

section

variable {rt rq' : WindowsFetchDataRequest}

lemma rank_finish (d : Bool) (r : Except WindowsCloudFilesError Unit) :
    (rt.finish d r).stage.rank = if d then 1 else 5 := by
  cases d <;> rfl

variable (p : PendingCompletion)

lemma rank_beginNative : (rt.beginNative p).stage.rank ≤ if p.dropping then 4 else 8 := by
  rw [WindowsFetchDataRequest.beginNative]
  split
  · rw [rank_finish]
    split_ifs <;> decide
  · exact le_rfl

lemma rank_andThen {α : Type} {o : Outcome WindowsCloudFilesError α} {b : ℕ} (hb : 5 ≤ b)
    {oe : WindowsCloudFilesError → WindowsFetchDataRequest} {ov : α → WindowsFetchDataRequest}
    (he : ∀ e, (oe e).stage.rank ≤ b) (hv : ∀ v, (ov v).stage.rank ≤ b) : (rt.andThen o oe ov).stage.rank ≤ b := by
  cases o with
  | ok v => exact hv v
  | error e => exact he e
  | panicked => exact hb

lemma rank_exchange (a : GateAttempt) : (rt.exchange p a).stage.rank < (FetchStage.beginning p a).rank := by
  rw [WindowsFetchDataRequest.exchange.eq_def]
  split
  · cases a <;> (simp only [FetchStage.rank]; split_ifs <;> decide)
  · cases a with
    | fromPending =>
      simp only [FetchStage.rank]
      split_ifs <;> decide
    | fromWatchdogTimedOut =>
      rw [rank_finish, FetchStage.rank]
      split_ifs <;> decide

lemma rank_execute (n : Except ℤ Unit) : (rt.execute p n).stage.rank < (FetchStage.executing p).rank := by
  have hrank : (if p.dropping = true then 1 else 5) < (FetchStage.executing p).rank := by
    rw [FetchStage.rank]
    split_ifs <;> decide
  rw [WindowsFetchDataRequest.execute]
  split
  · rw [rank_finish]
    exact hrank
  · cases n <;> exact (rank_finish _ _).trans_lt hrank

/-- **Every step of the owner** brings it closer to the end. -/
theorem fetch_advance_rank {m : FetchMove} (hm : rt.advance m = some rq') : rq'.stage.rank < rt.stage.rank := by
  have hless : ∀ {s : FetchStage} {next : WindowsFetchDataRequest} (rn b : ℕ), rt.stage = s →
      next.stage.rank ≤ b → s.rank = rn → b < rn → some next = some rq' →
      rq'.stage.rank < rt.stage.rank := by
    intro s next rn b hs hb hr hlt hsm
    cases hsm
    exact hs ▸ hr ▸ hb.trans_lt hlt
  have hfail : ∀ c rs, (rt.beginNative ⟨c, rs, false⟩).stage.rank ≤ 8 :=
    fun _ _ => rank_beginNative _
  unfold WindowsFetchDataRequest.advance at hm
  split at hm
  case h_1 hs => exact hless 15 8 hs (hfail _ _) rfl (by decide) hm
  case h_2 hs =>
    refine hless 15 8 hs ?_ rfl (by decide) hm
    rw [WindowsFetchDataRequest.completeInner]
    split_ifs
    · rw [rank_finish]
      decide
    · exact rank_andThen (by decide) (fun _ => hfail _ _) (fun _ => hfail _ _)
  case h_3 hs =>
    refine hless 15 8 hs ?_ rfl (by decide) hm
    rw [WindowsFetchDataRequest.restartHydration]
    split
    · rw [rank_finish]
      decide
    · refine rank_andThen (by decide) (fun _ => ?_) (fun _ => hfail _ _)
      rw [rank_finish]
      decide
  case h_4 hs => exact hless 15 14 hs le_rfl rfl (by decide) hm
  case h_5 hs => exact hless 15 5 hs le_rfl rfl (by decide) hm
  case h_6 hs =>
    split_ifs at hm
    · exact hless 14 5 hs (rank_finish false _).le rfl (by decide) hm
    · exact hless 14 13 hs le_rfl rfl (by decide) hm
  case h_7 hs =>
    split_ifs at hm
    · exact hless 13 8 hs (hfail _ _) rfl (by decide) hm
    · exact hless 13 12 hs le_rfl rfl (by decide) hm
  case h_8 failure hs =>
    refine hless 12 11 hs ?_ rfl (by decide) hm
    refine rank_andThen (by decide) (fun _ => (hfail _ _).trans (by decide)) fun _ => ?_
    cases failure with
    | some e => exact (hfail _ _).trans (by decide)
    | none => exact le_rfl
  case h_9 hs => exact hless 11 10 hs le_rfl rfl (by decide) hm
  case h_10 hs => exact hless 11 5 hs le_rfl rfl (by decide) hm
  case h_11 hs =>
    split_ifs at hm
    · exact hless 10 5 hs (rank_finish false _).le rfl (by decide) hm
    · exact hless 10 9 hs le_rfl rfl (by decide) hm
  case h_12 r hs =>
    split_ifs at hm
    · exact hless 9 8 hs (hfail _ _) rfl (by decide) hm
    · cases r with
      | ok r =>
        exact hless 9 8 hs (rank_andThen (by decide) (fun _ => hfail _ _) fun _ => hfail _ _) rfl
          (by decide) hm
      | error e => exact hless 9 8 hs (hfail _ _) rfl (by decide) hm
  case h_13 pending attempt hs =>
    cases hm
    rw [hs]
    exact rank_exchange pending attempt
  case h_14 pending native hs =>
    cases hm
    rw [hs]
    exact rank_execute pending native
  case h_15 hs => exact hless 5 4 hs (rank_beginNative _) rfl (by decide) hm
  case h_16 => cases hm

/-- **The owner is never stuck** before its lease is dropped. -/
theorem fetch_advance_enabled (rqs : WindowsFetchDataRequest) (hr : rqs.stage ≠ .releasing)
    (hs : rqs.stage ≠ .settled) : ∃ m rq', rqs.advance m = some rq' := by
  have hsome : ∃ m, (rqs.advance m).isSome = true := by
    cases hstage : rqs.stage with
    | held => exact ⟨.abandon, by simp only [WindowsFetchDataRequest.advance, hstage, isSome_some]⟩
    | checkingCancelled r a | checkingTimedOut r a =>
      refine ⟨.next, ?_⟩
      simp only [WindowsFetchDataRequest.advance, hstage]
      split_ifs <;> rfl
    | preparing r a =>
      exact ⟨.prepare none, by simp only [WindowsFetchDataRequest.advance, hstage, isSome_some]⟩
    | waiting r =>
      exact ⟨.abandon, by simp only [WindowsFetchDataRequest.advance, hstage, isSome_some]⟩
    | resumedCancelled r rs =>
      refine ⟨.next, ?_⟩
      simp only [WindowsFetchDataRequest.advance, hstage]
      split_ifs <;> rfl
    | resumedTimedOut r rs =>
      refine ⟨.next, ?_⟩
      simp only [WindowsFetchDataRequest.advance, hstage]
      split_ifs
      · rfl
      · cases rs <;> rfl
    | beginning p att =>
      exact ⟨.next, by simp only [WindowsFetchDataRequest.advance, hstage, isSome_some]⟩
    | executing p =>
      exact ⟨.execute (.ok ()), by simp only [WindowsFetchDataRequest.advance, hstage, isSome_some]⟩
    | dropping => exact ⟨.next, by simp only [WindowsFetchDataRequest.advance, hstage, isSome_some]⟩
    | releasing => exact absurd hstage hr
    | settled => exact absurd hstage hs
  obtain ⟨m, hm⟩ := hsome
  exact ⟨m, isSome_iff_exists.mp hm⟩

end

/-! ## One answer for a preflight -/

/-- A native preflight has an answer once it is acknowledged, and is acknowledged in the end. -/
structure PreflightSound (request : WindowsPreflightRequest) : Prop where
  unanswered : request.acknowledged = false → request.answers = []
  answered : request.acknowledged = true → request.answers.length = 1
  ended : request.stage = .releasing ∨ request.stage = .settled → request.acknowledged = true

namespace PreflightSound

variable {re rs' : WindowsPreflightRequest}

lemma new (s : WindowsPreflightSnapshot) (l : WindowsCallbackLease) : PreflightSound (.new .native s l) where
  unanswered _ := rfl
  answered h := by cases h
  ended h := by rcases h with h | h <;> cases h

lemma acknowledgeInner (h : PreflightSound re) (hn : re.completionAuthority = .native)
    (f : WindowsFetchDataFailure) (a : Bool) (n : Except ℤ Unit) :
    (re.acknowledgeInner f a n).1.acknowledged = true ∧ (re.acknowledgeInner f a n).1.answers.length = 1 := by
  simp only [WindowsPreflightRequest.acknowledgeInner, hn]
  split_ifs with hack
  · exact ⟨hack, h.answered hack⟩
  · obtain ⟨o, hop⟩ := completePreflight_eq_ok re.snapshot f a
    simp only [hop]
    rw [h.unanswered (Bool.not_eq_true _ ▸ hack)]
    exact ⟨trivial, rfl⟩

/-- **Every step of the owner** keeps a native preflight sound. -/
theorem advance (h : PreflightSound re) (hn : re.completionAuthority = .native)
    {m : PreflightMove} (hm : re.advance m = some rs') : PreflightSound rs' := by
  have hdone : ∀ (next : WindowsPreflightRequest), next.acknowledged = true → next.answers.length = 1 →
      PreflightSound next := by
    intro next ha han
    refine ⟨fun hnt => ?_, fun _ => han, fun _ => ha⟩
    rw [ha] at hnt
    cases hnt
  unfold WindowsPreflightRequest.advance at hm
  split at hm
  case h_1 native _ =>
    cases hm
    have hinner := h.acknowledgeInner hn .unsuccessful true native
    exact hdone _ hinner.1 hinner.2
  case h_2 failure native _ =>
    cases hm
    have hinner := h.acknowledgeInner hn failure false native
    exact hdone _ hinner.1 hinner.2
  case h_3 =>
    cases hm
    refine ⟨h.unanswered, h.answered, ?_⟩
    rintro (hs | hs) <;> cases hs
  case h_4 native _ =>
    cases hm
    have hinner := h.acknowledgeInner hn .providerTerminated false native
    exact hdone _ hinner.1 hinner.2
  case h_5 => cases hm

end PreflightSound

/-- What no step of the owner changes. -/
theorem preflight_advance_frame {request request' : WindowsPreflightRequest} {m : PreflightMove}
    (hm : request.advance m = some request') :
    request'.lease = request.lease ∧ request'.completionAuthority = request.completionAuthority ∧
      request'.stage ≠ .settled := by
  have hinner : ∀ f a n, (request.acknowledgeInner f a n).1.lease = request.lease ∧
      (request.acknowledgeInner f a n).1.completionAuthority = request.completionAuthority := by
    intro f a n
    unfold WindowsPreflightRequest.acknowledgeInner
    split
    · exact ⟨rfl, rfl⟩
    · split_ifs
      · exact ⟨rfl, rfl⟩
      · split <;> exact ⟨rfl, rfl⟩
  unfold WindowsPreflightRequest.advance at hm
  split at hm
  case h_3 =>
    cases hm
    refine ⟨rfl, rfl, ?_⟩
    intro h
    cases h
  case h_5 => cases hm
  all_goals
    cases hm
    refine ⟨(hinner _ _ _).1, (hinner _ _ _).2, ?_⟩
    intro h
    cases h

/-- How many steps the owner of a preflight takes at most before its lease is dropped. -/
def PreflightStage.rank : PreflightStage → ℕ
  | settled => 0
  | releasing => 1
  | dropping => 2
  | held => 3

/-- **The owner of a preflight** is never stuck before its lease is dropped, and gets closer to the end. -/
theorem preflight_advance_enabled (request : WindowsPreflightRequest) (hr : request.stage ≠ .releasing)
    (hs : request.stage ≠ .settled) :
    ∃ m request', request.advance m = some request' ∧ request'.stage.rank < request.stage.rank := by
  cases hstage : request.stage with
  | held =>
    refine ⟨.abandon, { request with stage := .dropping }, ?_, Nat.lt_succ_self 2⟩
    simp only [WindowsPreflightRequest.advance, hstage]
  | dropping =>
    refine ⟨.drop (.ok ()), { (request.acknowledgeInner .providerTerminated false (.ok ())).1 with
      stage := .releasing }, ?_, Nat.one_lt_two⟩
    simp only [WindowsPreflightRequest.advance, hstage]
  | releasing => exact absurd hstage hr
  | settled => exact absurd hstage hs

end AsterForge.Windows
