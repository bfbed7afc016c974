import AsterForge.Webdav.Recursion

/-!
# Nothing is deleted that was not transferred

Every step of a recursive mutation is allowed by what was recorded before it: a collection is deleted
only after its visit listed it and everything that this visit and the visits below it owe was done,
without any failure; a file takes the place of a collection only after the collection was deleted; a COPY
does nothing to its source; and nothing is done after a stop.

* **`recursive_mutation_safe`** — every event of every execution is allowed.
* **`deleted_before_transferred`** — two entries of one name are two visits, and the second may delete what
  the first could not transfer.
-/

namespace AsterForge.Webdav

open AsterForge.Core Library Work MutationRun MutationContext List Option Except

/-! ## Allowed steps -/

/-- What the listing of a collection is for whose deletion comes last. -/
def removalListing (operation : DavMutationOperation) (role : DavMutationTargetRole) : ListingPurpose :=
  if operation = .move ∧ role = .source then .transferSource else .deletion role

structure StepAllowed (operation : DavMutationOperation) (before : List MutationEvent) (frame : ℕ)
    (command : DavMutationCommand) : Prop where
  /-- Nothing has stopped the run. -/
  going : ∀ reason, .stopped reason ∉ before
  sourceKept : operation = .copy → command.role ≠ .source
  /-- A collection that is deleted was listed by the visit. -/
  listed : command.step = .deleteCollection →
    ∃ children, .listed frame (removalListing operation command.role) command.source children ∈ before
  /-- What the visit and the visits below it owe was done, and nothing there has failed. -/
  settled : command.step = .deleteCollection →
    ∀ visit, Below (fun outer inner => .opened inner (some outer) ∈ before) frame visit →
    (∀ goal, Owes operation before visit goal → Achieved before visit goal) ∧ ¬ FailedIn before visit
  /-- The collection that a file replaces was deleted. -/
  cleared : command.step = .copyFile ∨ command.step = .moveFile →
    ∀ source destination, .replacing frame source destination ∈ before →
    Achieved before frame (.deleted .destination destination true)

def Allowed (operation : DavMutationOperation) (before : List MutationEvent) : MutationEvent → Prop
  | .answered frame command _ => StepAllowed operation before frame command
  | _ => True

inductive SafeEvents (operation : DavMutationOperation) : List MutationEvent → Prop
  | nil : SafeEvents operation []
  | snoc {events : List MutationEvent} (hsafe : SafeEvents operation events) (event : MutationEvent)
      (hallowed : Allowed operation events event) : SafeEvents operation (events ++ [event])

variable {o : DavMutationOperation}

lemma SafeEvents.allowed {events : List MutationEvent}
    (h : SafeEvents o events) : ∀ {b : List MutationEvent} {e : MutationEvent}
      {a : List MutationEvent}, events = b ++ e :: a → Allowed o b e := by
  induction h with
  | nil => intro b e a hs; simp at hs
  | @snoc events _ l hl ih =>
    intro b e a hs
    rcases eq_nil_or_concat a with rfl | ⟨r, f, rfl⟩
    · obtain ⟨rfl, he⟩ := append_inj' hs rfl
      cases he
      exact hl
    · have hsplit' : events ++ [l] = (b ++ e :: r) ++ [f] := by
        simpa using hs
      exact ih (append_inj' hsplit' rfl).1

/-! ## Runs -/

variable {σ κ : Type}

/-- The record is safe, and unless the run was stopped the invariant holds. -/
structure Sound (context : MutationContext σ κ) (run : MutationRun σ) : Prop where
  safe : SafeEvents context.operation run.events
  coherent : run.stop = none → Coherent context.operation context.recurseCollections run.frames
    run.events run.work none

/-- What one step of the port leaves, seen from the record. -/
inductive Issued (run : MutationRun σ) (command : DavMutationCommand) (frame : ℕ) :
    Bool → MutationRun σ → Prop
  | succeeded (world : σ) (budget : DavTraversalBudget) :
      Issued run command frame true { run.record (.answered frame command true) with world, budget }
  | failed (world : σ) (budget : DavTraversalBudget) (failures : List DavMutationFailure) :
      Issued run command frame false
        { (run.record (.answered frame command false)).markFailed frame with world, budget, failures }
  | stopped (world : σ) (reason : DavMutationStop) :
      Issued run command frame false (MutationRun.stopWith
          { (run.record (.answered frame command false)).markFailed frame with world } reason)

lemma issued (run : MutationRun σ) (p : DavMutationPort σ) (command : DavMutationCommand) (frame : ℕ) :
    Issued run command frame (run.issue p command frame).1 (run.issue p command frame).2 := by
  unfold issue applyStep
  cases hans : p.execute run.world command with
  | mk a w =>
    cases a with
    | ok v => exact .succeeded w _
    | error e =>
      dsimp only [markFailed, record]
      cases run.budget.recordFailure with
      | ok b => exact .failed w b _
      | error e => exact .stopped w _

inductive ReadFailed (run : MutationRun σ) (path : DavPath) (frame : ℕ) : MutationRun σ → Prop
  | stopped (reason : DavMutationStop) : ReadFailed run path frame (run.stopWith reason)
  | uncounted (reason : DavMutationStop) :
      ReadFailed run path frame
        (MutationRun.stopWith ((run.record (.unreadable frame path)).markFailed frame) reason)
  | failed {budget : DavTraversalBudget} (hbudget : run.budget.recordFailure = .ok budget)
      (error : DavMutationStepError) :
      ReadFailed run path frame
        { (run.record (.unreadable frame path)).markFailed frame with
          budget, failures := run.failures ++ [error.intoFailure] }

lemma readFailed (run : MutationRun σ) (e : DavDirectoryReadError) (path : DavPath) (frame : ℕ) :
    ReadFailed run path frame (run.recordDirectoryReadFailure e path frame) := by
  unfold recordDirectoryReadFailure
  split
  case h_1 => exact .stopped _
  case h_2 => exact .stopped _
  case h_3 => exact .stopped _
  case h_4 => exact .stopped _
  case h_5 => exact .stopped _
  case h_6 =>
    dsimp only
    split
    case h_1 => exact .uncounted _
    case h_2 budget hbud =>
      replace hbud : run.budget.recordFailure = .ok budget := hbud
      exact .failed hbud _

lemma MutationRun.propagateFrameFailure_eq (run : MutationRun σ) (frame : ℕ) :
    run.propagateFrameFailure frame = { run with frames := propagated run.frames frame } := by
  unfold propagateFrameFailure propagated
  rcases run.frames[frame]? with _ | ⟨_ | parent, _ | _⟩ <;> rfl

variable {frame : ℕ}

lemma MutationRun.frameFailed_iff {run : MutationRun σ} :
    run.frameFailed frame = true ↔ failedIn run.frames frame := by
  unfold frameFailed failedIn
  cases run.frames[frame]? with
  | none => simp
  | some e => cases e; simp

/-! ### Rounds -/

section

variable [DecidableEq κ] {c : MutationContext σ κ} {run next : MutationRun σ}

/-- **One round.**  It stops where it is cancelled, and else performs the next item. -/
lemma MutationContext.step_cases (hs : c.step run = some next) : run.stop = none ∧ ∃ world,
    next = stopWith { run with world } .cancelled ∨ ∃ item work, run.work = item :: work ∧
      next = c.perform { run with world, work, budget := run.budget.completeWork } item := by
  unfold step at hs
  split at hs
  · cases hs
  · rename_i hstop
    refine ⟨hstop, (c.cancellation.isCancelled run.world).2, ?_⟩
    dsimp only at hs
    split at hs
    · exact .inl (some.inj hs).symm
    · split at hs
      · cases hs
      · rename_i item work hwork
        exact .inr ⟨item, work, hwork, (some.inj hs).symm⟩

lemma MutationContext.loop_keeps {I : MutationRun σ → Prop}
    (hk : ∀ run next, I run → c.step run = some next → I next) :
    ∀ (r : ℕ) {run : MutationRun σ}, I run → I (c.loop r run)
  | 0, _, h => h
  | r + 1, run, h => by
    rw [loop]
    cases hstep : c.step run with
    | none => exact h
    | some next => exact loop_keeps hk r (hk run next h hstep)

def requestContext (request : DavMutationRequest) (enumerator : DavDirectoryEnumerator σ κ)
    (port : DavMutationPort σ) (cancellation : DavCancellation σ) (limits : DavMutationExecutorLimits) :
    MutationContext σ κ :=
  ⟨enumerator, port, cancellation, limits, request.operation, request.recurseCollections⟩

/-- The reports of an execution: the request is refused before any work, or its work is done. -/
inductive Executed (request : DavMutationRequest) (context : MutationContext σ κ) (world : σ) :
    MutationReport σ → Prop
  | refused (stop : DavMutationStop) :
      Executed request context world
        ⟨⟨request.operation, request.destination.getD request.source, request.destinationExisted, [],
          some stop, ⟨0, 0, 0, 0⟩⟩, [], world⟩
  | ran {budget : DavTraversalBudget} {root : Work} {run : MutationRun σ}
      (hbudget : DavTraversalBudget.new context.limits.traversal = .ok budget)
      (hroot : rootWork request = some root)
      (hrun : context.loop context.maximumRounds (initialRun world budget root) = run) :
      Executed request context world
        ⟨⟨request.operation, request.destination.getD request.source, request.destinationExisted,
          run.failures, run.stop, run.budget.progress⟩, run.events, run.world⟩

lemma executed (r : DavMutationRequest) (e : DavDirectoryEnumerator σ κ)
    (p : DavMutationPort σ) (c : DavCancellation σ) (l : DavMutationExecutorLimits)
    (w : σ) : Executed r (requestContext r e p c l) w (executeRecursiveMutation r e p c l w) := by
  unfold executeRecursiveMutation
  cases hbud : DavTraversalBudget.new l.traversal with
  | error er =>
    have herror : er = ⟨.invalidLimits, ⟨0, 0, 0, 0⟩⟩ := by
      rcases bind_eq_error.mp hbud with hr | ⟨_, -, hn⟩
      · exact (refuse_eq_error.mp hr).2.symm
      · cases hn
    rw [herror]
    exact .refused _
  | ok b =>
    have hn := (DavTraversalBudget.new_ok hbud).1
    dsimp only
    split
    · rw [hn]
      exact .refused _
    · split
      · rw [hn]
        exact .refused _
      · rename_i root hroot
        exact .ran hbud hroot rfl

end

structure Taken (context : MutationContext σ κ) (run : MutationRun σ) (item : Work) : Prop where
  safe : SafeEvents context.operation run.events
  coherent : Coherent context.operation context.recurseCollections run.frames run.events
    (item :: run.work) none

namespace Sound

variable {cn : MutationContext σ κ} (run : MutationRun σ)

lemma stopWith (hs : SafeEvents cn.operation run.events) (r : DavMutationStop) : Sound cn (run.stopWith r) :=
  ⟨hs.snoc _ trivial, fun hg => by cases hg⟩

lemma visiting (hs : SafeEvents cn.operation run.events) {depth : ℕ} {visit : MutationRun σ → MutationRun σ}
    (hv : ∀ budget, Sound cn (visit { run with budget })) : Sound cn (run.visiting depth visit) := by
  unfold MutationRun.visiting
  split
  · exact stopWith run hs _
  · exact hv _

lemma queueWork (hs : SafeEvents cn.operation run.events) {next : List Work}
    (hn : Coherent cn.operation cn.recurseCollections run.frames run.events
      (next ++ run.work) none) : Sound cn (run.queueWork next) := by
  unfold MutationRun.queueWork
  split
  · exact stopWith run hs _
  · exact ⟨hs, fun _ => hn⟩

variable {im : Work} {cm : DavMutationCommand} {frame : ℕ}

/-- **A step that ends its item**, in the frame the item belongs to or in one without a parent. -/
theorem issue (h : Taken cn run im) (hs : im.closes = none)
    (how : im.starts = some frame ∨ (im.starts = none ∧ parentIn run.frames frame = none))
    (hf : frame < run.frames.length) (ha : ∀ g, im.Promises cn.operation g → cm.Achieves g)
    (hal : StepAllowed cn.operation run.events frame cm) : Sound cn (run.issue cn.port cm frame).2 := by
  obtain ⟨hsf, h⟩ := h
  have howner : ∀ {f o}, im.ownerIn f = some o → o = frame := by
    intro f o ho
    rw [ownerIn_of_start hs] at ho
    rcases how with how | ⟨how, -⟩
    · exact some.inj (ho.symm.trans how)
    · cases ho.symm.trans how
  have hclos : ∀ {f} i o, im.closes = some i → parentIn f i = some o → failedIn f i → failedIn f o := by
    intro f i o hi
    cases hs.symm.trans hi
  have hansd : ∀ s, SafeEvents cn.operation (run.events ++ [.answered frame cm s]) := fun s => hsf.snoc _ hal
  have hiss := issued run cn.port cm frame
  generalize run.issue cn.port cm frame = result at hiss ⊢
  obtain ⟨a, run'⟩ := result
  cases hiss with
  | succeeded w b =>
    refine ⟨hansd _, fun _ => ?_⟩
    refine (h.succeeded frame cm).discharge ?_ hclos
    intro o g ho hg
    exact .inl ⟨frame, cm, .inl (howner ho).symm, by simp, ha g hg⟩
  | failed w b fl =>
    refine ⟨hansd _, fun _ => ?_⟩
    obtain ⟨hm, hr⟩ := h.failed hf cm
    refine (hr.stay ?_).discharge ?_ hclos
    · -- the frame is the item's, and so it is open
      rintro i ⟨⟩ o ho -
      rcases how with how | ⟨-, hn⟩
      · exact .inr (hr.open_of_owner mem_cons_self ((ownerIn_of_start hs).trans how))
      · rw [parentIn_marked] at ho
        cases hn.symm.trans ho
    · intro o g ho hg
      exact .inr (howner ho ▸ hm)
  | stopped w r => exact stopWith _ (hansd false) r

/-- **A step of a visit that ends with it.** -/
theorem issueLast (h : Taken cn run im) (hc : im.closes = some frame) (hf : frame < run.frames.length)
    (ha : ∀ g, im.Promises cn.operation g → cm.Achieves g) (hal : StepAllowed cn.operation run.events frame cm) :
    Sound cn ((run.issue cn.port cm frame).2.propagateFrameFailure frame) := by
  obtain ⟨hs, h⟩ := h
  have hsame : ∀ i, im.closes = some i → i = frame :=
    fun i hi => some.inj (hi.symm.trans hc)
  have hansd : ∀ s, SafeEvents cn.operation (run.events ++ [.answered frame cm s]) := fun s => hs.snoc _ hal
  have hiss := issued run cn.port cm frame
  generalize run.issue cn.port cm frame = result at hiss ⊢
  obtain ⟨a, run'⟩ := result
  cases hiss with
  | succeeded w b =>
    rw [propagateFrameFailure_eq]
    refine ⟨hansd _, fun _ => ?_⟩
    refine (h.succeeded frame cm).leave (by simp) (ownerIn_of_closes hc) hsame ?_
    intro o g ho hgl
    refine .inl ⟨frame, cm, .inr ?_, by simp, ha g hgl⟩
    exact mem_append_left _ ((h.opened frame (some o)).mpr ⟨hf, ho⟩)
  | failed w b f =>
    rw [propagateFrameFailure_eq]
    refine ⟨hansd _, fun _ => ?_⟩
    obtain ⟨hm, hr⟩ := h.failed hf cm
    exact hr.leave (by simp) (ownerIn_of_closes hc) hsame fun _ _ _ _ => .inr hm
  | stopped w r =>
    rw [propagateFrameFailure_eq]
    exact ⟨(hansd false).snoc _ trivial, fun hg => by cases hg⟩

lemma skip (h : Taken cn run im) (hc : im.closes = some frame)
    (hv : ∀ g, im.Promises cn.operation g → failedIn run.frames frame) :
    Sound cn (run.propagateFrameFailure frame) := by
  obtain ⟨hs, h⟩ := h
  rw [propagateFrameFailure_eq]
  refine ⟨hs, fun _ => ?_⟩
  exact h.leave (by simp) (ownerIn_of_closes hc) (fun i hi => some.inj (hi.symm.trans hc))
    fun _ g _ hg => .inr (hv g hg)

lemma unread (hs : SafeEvents cn.operation run.events)
    (h : Coherent cn.operation cn.recurseCollections (marked run.frames frame) run.events
      (im :: run.work) (some frame)) (hst : im.closes = none)
    (hf : frame < run.frames.length) (hp : parentIn run.frames frame = im.starts)
    (e : DavDirectoryReadError) (path : DavPath) :
    Sound cn (MutationContext.unread run e path frame) := by
  have hstop : ∀ (run' : MutationRun σ) (r : DavMutationStop), SafeEvents cn.operation run'.events →
      Sound cn ((run'.stopWith r).propagateFrameFailure frame) := by
    intro run' r hs
    rw [propagateFrameFailure_eq]
    exact ⟨hs.snoc _ trivial, fun hg => by cases hg⟩
  have hread := readFailed run e path frame
  unfold MutationContext.unread
  generalize run.recordDirectoryReadFailure e path frame = run' at hread ⊢
  cases hread with
  | stopped r => exact hstop _ _ hs
  | uncounted r => exact hstop _ _ (hs.snoc _ trivial)
  | failed hb e =>
    rw [propagateFrameFailure_eq]
    refine ⟨hs.snoc _ trivial, fun _ => ?_⟩
    have hmark : failedIn (marked run.frames frame) frame :=
      failedIn_marked.mpr (.inr ⟨rfl, hf⟩)
    refine (h.record (.inr ⟨frame, path, rfl⟩) ?_).leave (by simp)
      ((ownerIn_of_start hst).trans (parentIn_marked.trans hp).symm) ?_ fun _ _ _ _ => .inr hmark
    · rintro o (⟨_, hm⟩ | ⟨_, hm⟩)
      · simp at hm
      · simp only [mem_singleton, MutationEvent.unreadable.injEq] at hm
        exact hm.1 ▸ hmark
    · intro i hi
      cases hst.symm.trans hi

end Sound

/-! ## Merging -/

namespace Work

structure Merged (frame : ℕ) (item : Work) : Prop where
  closes : item.closes = none
  starts : item.starts = some frame
  fits : ∀ operation recurse events, operation ≠ .delete → (operation = .move → recurse = true) →
    (∀ source destination, .replacing frame source destination ∉ events) → item.Fits operation recurse events

def Transfers (child : Child) (item : Work) : Prop :=
  ∀ operation goal, ListingPurpose.transferSource.Requires operation child goal → item.Promises operation goal

variable {d f : ℕ} {ch : Child} {s ds : DavPath}

lemma merged_transferDirectory : (transferDirectory s ds d (some f)).Merged f :=
  ⟨rfl, rfl, fun _ _ _ hd hm _ => ⟨hd, hm⟩⟩

lemma merged_transferFile : (transferFile s ds d (some f)).Merged f := by
  refine ⟨rfl, rfl, fun _ _ _ hd _ hr => ⟨hd, ?_⟩⟩
  rintro _ ⟨⟩
  exact hr

lemma merged_replaceWithFile : (replaceWithFile s ds d (some f)).Merged f :=
  ⟨rfl, rfl, fun _ _ _ hd _ _ => hd⟩

lemma merged_destinationDeleteWork : (destinationDeleteWork d f ch).Merged f :=
  ⟨rfl, rfl, fun _ _ _ hd _ _ => (if_neg hd).symm⟩

lemma transfers_transferDirectory (hc : ch.isCollection = true) :
    (transferDirectory ch.path ds d (some f)).Transfers ch := by
  rintro o g (rfl | ⟨hm, -, rfl⟩)
  · exact .inl (by rw [hc])
  · exact .inr ⟨hm, rfl⟩

lemma transfers_of_file {item : Work} (hf : ch.isCollection = false)
    (hi : ∀ o, item.Promises o (.transferred ch.path false)) : item.Transfers ch := by
  rintro o g (rfl | ⟨-, hc, -⟩)
  · rw [hf]
    exact hi o
  · cases hf.symm.trans hc

end Work

section

variable {rt : DavPath} {dp fr : ℕ}

lemma pushSourceChild_ok {child : Child} {item : Work} (h : pushSourceChild rt dp fr child = .ok item) :
    item.Merged fr ∧ item.Transfers child := by
  obtain ⟨destination, -, h⟩ := bind_eq_ok.mp h
  split at h
  · rename_i hcoll
    cases h
    exact ⟨merged_transferDirectory, transfers_transferDirectory hcoll⟩
  · rename_i hcoll
    cases h
    exact ⟨merged_transferFile, transfers_of_file (by simpa using hcoll) fun _ => rfl⟩

lemma pushMatchingChildren_ok {source destination : Child} {item : Work}
    (h : pushMatchingChildren rt dp fr source destination = .ok item) :
    item.Merged fr ∧ item.Transfers source := by
  obtain ⟨path, -, h⟩ := bind_eq_ok.mp h
  split at h
  · rename_i hcoll
    cases h
    exact ⟨merged_transferDirectory, transfers_transferDirectory hcoll⟩
  · rename_i hcoll
    have hfile : source.isCollection = false := by simpa using hcoll
    split at h
    · cases h
      exact ⟨merged_replaceWithFile, transfers_of_file hfile fun _ => rfl⟩
    · cases h
      exact ⟨merged_transferFile, transfers_of_file hfile fun _ => rfl⟩

variable {sr : List Child}

lemma mergeChildren_cons {first : Work} {r : List Work} {source : Child}
    (hf : first.Merged fr ∧ first.Transfers source)
    (hr : (∀ item ∈ r, item.Merged fr) ∧ ∀ child ∈ sr, ∃ item ∈ r, item.Transfers child) :
    (∀ item ∈ first :: r, item.Merged fr) ∧
      ∀ child ∈ source :: sr, ∃ item ∈ first :: r, item.Transfers child := by
  refine ⟨?_, ?_⟩
  · intro item hm
    rcases mem_cons.mp hm with rfl | hm
    · exact hf.1
    · exact hr.1 item hm
  · intro child hm
    rcases mem_cons.mp hm with rfl | hm
    · exact ⟨first, mem_cons_self, hf.2⟩
    · obtain ⟨item, hi, hc⟩ := hr.2 child hm
      exact ⟨item, mem_cons_of_mem _ hi, hc⟩

/-- **A merge leaves no source child out.** -/
theorem mergeChildren_ok : ∀ {f : ℕ} {sources d : List Child} {next : List Work}, sources.length + d.length ≤ f →
    mergeChildren rt dp fr f sources d = .ok next →
    (∀ item ∈ next, item.Merged fr) ∧ ∀ child ∈ sources, ∃ item ∈ next, item.Transfers child
  | 0, [], [], next, _, h => by
    cases h
    simp
  | 0, _ :: _, _, _, hfuel, _ => by simp at hfuel
  | 0, [], _ :: _, _, hfuel, _ => by simp at hfuel
  | f + 1, [], [], next, _, h => by
    cases h
    simp
  | f + 1, [], destination :: d, next, hfuel, h => by
    simp only [mergeChildren, bind_eq_ok, except_pure, ok.injEq] at h
    obtain ⟨r, hr, rfl⟩ := h
    obtain ⟨hmr, -⟩ := mergeChildren_ok (by simpa using hfuel) hr
    refine ⟨?_, by simp⟩
    intro item hm
    rcases mem_cons.mp hm with rfl | hm
    · exact merged_destinationDeleteWork
    · exact hmr item hm
  | f + 1, source :: sources, [], next, hfuel, h => by
    simp only [mergeChildren, bind_eq_ok, except_pure, ok.injEq] at h
    obtain ⟨first, hf, r, hr, rfl⟩ := h
    exact mergeChildren_cons (pushSourceChild_ok hf) (mergeChildren_ok (by simpa using hfuel) hr)
  | f + 1, source :: sources, destination :: d, next, hfuel, h => by
    simp only [length_cons] at hfuel
    unfold mergeChildren at h
    split at h
    · simp only [bind_eq_ok, except_pure, ok.injEq] at h
      obtain ⟨first, hf, r, hr, rfl⟩ := h
      exact mergeChildren_cons (pushSourceChild_ok hf)
        (mergeChildren_ok (by simp only [length_cons]; omega) hr)
    · split at h
      · simp only [bind_eq_ok, except_pure, ok.injEq] at h
        obtain ⟨first, hf, r, hr, rfl⟩ := h
        exact mergeChildren_cons (pushMatchingChildren_ok hf) (mergeChildren_ok (by omega) hr)
      · simp only [bind_eq_ok, except_pure, ok.injEq] at h
        obtain ⟨r, hr, rfl⟩ := h
        obtain ⟨hmr, ht⟩ :=
          mergeChildren_ok (by simp only [length_cons]; omega) hr
        refine ⟨?_, ?_⟩
        · intro item hm
          rcases mem_cons.mp hm with rfl | hm
          · exact merged_destinationDeleteWork
          · exact hmr item hm
        · intro child hm
          obtain ⟨item, hi, hc⟩ := ht child hm
          exact ⟨item, mem_cons_of_mem _ hi, hc⟩

lemma mergeTransferChildren_ok {d : List Child} {next : List Work}
    (h : mergeTransferChildren rt dp fr sr d = .ok next) :
    (∀ item ∈ next, item.Merged fr) ∧ ∀ child ∈ sr, ∃ item ∈ next, item.Transfers child := by
  have hsources := perm_insertionSort Child.Le sr
  have hdests := perm_insertionSort Child.Le d
  obtain ⟨hm, ht⟩ := mergeChildren_ok (by rw [hsources.length_eq, hdests.length_eq]) h
  exact ⟨hm, fun child hmm => ht child (hsources.mem_iff.mpr hmm)⟩

end

/-! ## Items of work -/

section

variable {ct : MutationContext σ κ} {run : MutationRun σ} {e : List MutationEvent} {cd : DavMutationCommand}

lemma Coherent.stepAllowed {r : Bool} {f : List Frame} {w : List Work} {l : Option ℕ} (h : Coherent o r f e w l)
    (hr : o = .copy → cd.role ≠ .source) (hs : cd.step ≠ .deleteCollection)
    (hrp : cd.step = .copyFile ∨ cd.step = .moveFile →
      ∀ source destination, .replacing frame source destination ∉ e) :
    StepAllowed o e frame cd where
  going := h.going
  sourceKept := hr
  listed := fun hd => absurd hd hs
  settled := fun hd => absurd hd hs
  cleared := fun ht source destination hm =>
    absurd hm (hrp ht source destination)

variable {i : Work} {r : DavMutationTargetRole} {p : DavPath} {pr : Option ℕ}

/-- **A collection is deleted** by the item that closes its visit. -/
lemma deletionAllowed (h : Coherent ct.operation ct.recurseCollections run.frames run.events (i :: run.work) none)
    (hc : i.closes = some frame) (hf : ¬ failedIn run.frames frame) (hr : ct.operation = .copy → r ≠ .source)
    (hl : ∃ c, .listed frame (removalListing ct.operation r) p c ∈ run.events) :
    StepAllowed ct.operation run.events frame (ct.deleteCommand .deleteCollection r p) where
  going := h.going
  sourceKept := hr
  listed := fun _ => hl
  settled := fun _ _ hb => h.settled hc hf hb
  cleared := by rintro (ht | ht) <;> cases ht

open Sound

lemma sound_single (run : MutationRun σ) (h : Taken ct run i) (hs : i.closes = none)
    (ha : ∀ g, i.Promises ct.operation g → cd.Achieves g) (hr : ct.operation = .copy → cd.role ≠ .source)
    (hst : cd.step ≠ .deleteCollection) (hrp : cd.step = .copyFile ∨ cd.step = .moveFile → ∀ frame ∈ i.starts,
      ∀ source destination, .replacing frame source destination ∉ run.events) :
    Sound ct ((run.frameOrNew i.starts).2.issue ct.port cd (run.frameOrNew i.starts).1).2 := by
  obtain ⟨hsf, h⟩ := h
  cases hpar : i.starts with
  | some frame =>
    have hframe := h.known i mem_cons_self frame (.inl hpar)
    exact issue run ⟨hsf, h⟩ hs (.inl hpar) hframe ha (h.stepAllowed hr hst fun ht => hrp ht frame hpar)
  | none =>
    have hopen := h.openFrame none (by simp)
    have hopenedSafe : SafeEvents ct.operation (run.openFrame none).2.events :=
      hsf.snoc _ trivial
    have hlt : run.frames.length < (run.openFrame none).2.frames.length := by
      simp [openFrame]
    show Sound ct ((run.openFrame none).2.issue ct.port cd run.frames.length).2
    refine issue (run.openFrame none).2 ⟨hopenedSafe, hopen⟩ hs (.inr ⟨hpar, parentIn_new⟩) hlt ha
      (hopen.stepAllowed hr hst ?_)
    -- the frame is new, and nothing has been replaced in it
    intro _ source destination hm
    have hbef := h.replaced run.frames.length source destination (by simpa using hm)
    omega

variable {source destination : DavPath} {depth : ℕ}

theorem sound_transferFile (h : Taken ct run (.transferFile source destination depth pr)) :
    Sound ct (ct.transferFile run source destination depth pr) := by
  obtain ⟨hsf, h⟩ := h
  obtain ⟨-, hr⟩ := h.fits _ mem_cons_self
  refine visiting run hsf fun budget => ?_
  refine sound_single { run with budget } ⟨hsf, h⟩ rfl ?_ (by simp [transferCommand]) ?_ fun _ => hr
  · rintro goal rfl
    exact ⟨rfl, rfl⟩
  · intro hs
    unfold transferCommand at hs
    split at hs <;> cases hs

theorem sound_deleteFile (h : Taken ct run (.deleteNode p false r depth pr)) :
    Sound ct (ct.deleteFile run p r depth pr) := by
  obtain ⟨hs, h⟩ := h
  have hrole : r = deletionRole ct.operation := h.fits _ mem_cons_self
  refine visiting run hs fun budget => ?_
  refine sound_single { run with budget } ⟨hs, h⟩ rfl ?_ ?_ (by simp [deleteCommand])
    (by simp [deleteCommand])
  · rintro goal rfl
    exact ⟨rfl, rfl, rfl⟩
  · intro hc
    simp [deleteCommand, hrole, deletionRole, hc]

theorem sound_replaceWithFile (h : Taken ct run (.replaceWithFile source destination depth pr)) :
    Sound ct (replaceWithFile run source destination depth pr) := by
  obtain ⟨hsf, h⟩ := h
  have hdel : ct.operation ≠ .delete := h.fits _ mem_cons_self
  have hopen := h.openFrame pr fun ot ho =>
    h.known _ mem_cons_self ot (.inl ho)
  have hlt : run.frames.length < (run.frames ++ [(⟨pr, false⟩ : Frame)]).length := by simp
  have hopenedSafe : SafeEvents ct.operation
      (run.events ++ [.opened run.frames.length pr]) := hsf.snoc _ trivial
  refine queueWork _ (hopenedSafe.snoc (.replacing run.frames.length source destination) trivial) ?_
  refine hopen.push [.deleteNode destination true .destination depth (some run.frames.length)]
    (.finalizeFileReplacement source destination depth run.frames.length) rfl hlt parentIn_new
    (grown_replacing hlt) ?_ ⟨rfl, rfl, hdel⟩ ?_ ?_ ?_
  · intro o hm
    rw [mem_singleton.mp hm]
    exact ⟨rfl, rfl, (if_neg hdel).symm⟩
  · intro v g how
    refine how.of_replacing.imp_right ?_
    rintro ⟨hv, rfl⟩
    exact ⟨hv, _, mem_singleton_self _, rfl⟩
  · rintro ot g - rfl
    exact .inr rfl
  · intro o hm v s' d' hr
    rcases mem_append.mp hr with hb | hn
    · exact .inl hb
    · cases mem_singleton.mp hn
      refine .inr fun hs => ?_
      have hknown := h.known o (mem_cons_of_mem _ hm) run.frames.length (.inl hs)
      omega

theorem sound_finalizeTransfer {source : DavPath} (h : Taken ct run (.finalizeTransfer source frame)) :
    Sound ct (ct.finalizeTransfer run source frame) := by
  obtain ⟨hs, h⟩ := h
  obtain ⟨-, hl⟩ := h.fits _ mem_cons_self
  unfold MutationContext.finalizeTransfer
  split
  · rename_i hskip
    refine skip run ⟨hs, h⟩ rfl ?_
    rintro g ⟨hm, -⟩
    exact frameFailed_iff.mp (hskip.resolve_left fun hn => hn hm)
  · rename_i hgo
    obtain ⟨hm, hf⟩ := not_or.mp hgo
    replace hm : ct.operation = .move := not_not.mp hm
    rw [frameFailed_iff] at hf
    refine issueLast run ⟨hs, h⟩ rfl (h.known _ mem_cons_self frame (.inr rfl)) ?_ ?_
    · rintro g ⟨-, rfl⟩
      exact ⟨rfl, rfl, rfl⟩
    · refine deletionAllowed h rfl hf ?_ ?_
      · intro hc
        cases hm.symm.trans hc
      · rw [show removalListing ct.operation .source = .transferSource from if_pos ⟨hm, rfl⟩]
        exact hl

variable {depth frame : ℕ}

theorem sound_finalizeFileReplacement
    (h : Taken ct run (.finalizeFileReplacement source destination depth frame)) :
    Sound ct (ct.finalizeFileReplacement run source destination depth frame) := by
  obtain ⟨hs, h⟩ := h
  unfold MutationContext.finalizeFileReplacement
  split
  · rename_i hfail
    exact skip run ⟨hs, h⟩ rfl fun _ _ => frameFailed_iff.mp hfail
  · rename_i hfail
    rw [frameFailed_iff] at hfail
    refine visiting run hs fun budget => ?_
    refine issueLast { run with budget } ⟨hs, h⟩ rfl (h.known _ mem_cons_self frame (.inr rfl)) ?_ ?_
    · rintro goal rfl
      exact ⟨rfl, rfl⟩
    · have hstep : (ct.transferCommand source destination).step ≠ .deleteCollection := by
        unfold MutationContext.transferCommand
        split <;> simp
      refine ⟨h.going, by simp [MutationContext.transferCommand], fun hd => absurd hd hstep,
        fun hd => absurd hd hstep, ?_⟩
      intro _ source' destination' hr
      exact (h.settled rfl hfail .refl).1 _ (.clearing hr)

theorem sound_finalizeDelete (h : Taken ct run (.finalizeDelete p r frame)) :
    Sound ct (ct.finalizeDelete run p r frame) := by
  obtain ⟨hs, h⟩ := h
  obtain ⟨hr, hl⟩ := h.fits _ mem_cons_self
  unfold MutationContext.finalizeDelete
  split
  · rename_i hfail
    exact skip run ⟨hs, h⟩ rfl fun _ _ => frameFailed_iff.mp hfail
  · rename_i hfail
    rw [frameFailed_iff] at hfail
    refine issueLast run ⟨hs, h⟩ rfl (h.known _ mem_cons_self frame (.inr rfl)) ?_ ?_
    · rintro g rfl
      exact ⟨rfl, rfl, rfl⟩
    · refine deletionAllowed h rfl hfail ?_ ?_
      · intro hc
        simp [hr, deletionRole, hc]
      · -- in a MOVE nothing but the source is listed for a transfer
        have hlisting : removalListing ct.operation r = .deletion r := by
          refine if_neg ?_
          rintro ⟨hm, hsr⟩
          rw [hr, deletionRole, if_neg (by simp [hm])] at hsr
          cases hsr
        rw [hlisting]
        exact hl

variable {source destination : DavPath}

lemma sound_mergeDirectories (run : MutationRun σ) (hs : SafeEvents ct.operation run.events) {sc dc : List Child}
    (he : run.events = e ++ [.listed frame .transferSource source sc] ++
      [.listed frame .transferDestination destination dc])
    (h : Coherent ct.operation ct.recurseCollections run.frames e
      (.transferDirectory source destination depth pr :: run.work) none)
    (hrc : ct.recurseCollections = true) (hlt : frame < run.frames.length)
    (hpa : parentIn run.frames frame = pr)
    (hpr : ∀ o, pr = some o → Achieved e o (.transferred source true))
    (hf : ∀ source destination, .replacing frame source destination ∉ e) :
    Sound ct (mergeDirectories run source destination depth frame sc dc) := by
  obtain ⟨hd, -⟩ := h.fits _ mem_cons_self
  have hgrown : Grown run.frames e run.events := he ▸ grown_listed.trans grown_listed
  unfold mergeDirectories
  split
  · exact stopWith run hs _
  · split
    · rw [propagateFrameFailure_eq]
      exact ⟨hs.snoc _ trivial, fun hg => by cases hg⟩
    · rename_i next hnext
      obtain ⟨hm, ht⟩ := mergeTransferChildren_ok hnext
      refine queueWork run hs ?_
      refine h.push next (.finalizeTransfer source frame) rfl hlt hpa hgrown ?_
        ⟨rfl, rfl, hd, sc, by simp [he]⟩ ?_ ?_ ?_
      · intro ot hmm
        have hother := hm ot hmm
        refine ⟨hother.closes, hother.starts, hother.fits _ _ _ hd (fun _ => hrc) ?_⟩
        intro s' d' hr
        exact hf s' d' (by simpa [he] using hr)
      · intro v g ho
        rw [he] at ho
        rcases ho.of_listed with hb | ⟨-, _, -, hn⟩
        · refine hb.of_listed.imp_right ?_
          rintro ⟨hv, child, hc, hgl⟩
          obtain ⟨i, hi, hp⟩ := ht child hc
          exact ⟨hv, i, hi, hp _ _ hgl⟩
        · cases hn
      · rintro o g hot (rfl | hrm)
        · exact .inl ((hpr o hot).mono hgrown.sub)
        · exact .inr hrm
      · intro ot _ v s' d' hr
        exact .inl (by simpa [he] using hr)

variable [DecidableEq κ]

theorem sound_deleteCollection (h : Taken ct run (.deleteNode p true r depth pr)) :
    Sound ct (ct.deleteCollection run p r depth pr) := by
  obtain ⟨hs, h⟩ := h
  have hrole : r = deletionRole ct.operation := h.fits _ mem_cons_self
  refine visiting run hs fun budget => ?_
  have hopen := h.openFrame pr fun outer ho =>
    h.known _ mem_cons_self outer (.inl ho)
  have hlt : run.frames.length < (run.frames ++ [(⟨pr, false⟩ : Frame)]).length := by simp
  have hopenedSafe : SafeEvents ct.operation
      (run.events ++ [.opened run.frames.length pr]) := hs.snoc _ trivial
  dsimp only [openFrame, record]
  split
  · rename_i error world _
    exact unread ⟨world, run.work, run.frames ++ [⟨pr, false⟩], run.failures, budget,
      run.stop, run.events ++ [.opened run.frames.length pr]⟩ hopenedSafe
      (hopen.markFailed _ (by simp)) rfl hlt parentIn_new error p
  · rename_i children world _
    have hlistedSafe := hopenedSafe.snoc (.listed run.frames.length (.deletion r) p children) trivial
    split
    · exact stopWith _ hlistedSafe _
    · refine queueWork _ hlistedSafe ?_
      refine hopen.push _ (.finalizeDelete p r run.frames.length) rfl hlt parentIn_new grown_listed ?_
        ⟨rfl, rfl, hrole, children, mem_append_right _ (mem_singleton_self _)⟩ ?_ ?_ ?_
      · intro other hm
        obtain ⟨child, -, rfl⟩ := mem_map.mp hm
        exact ⟨rfl, rfl, hrole⟩
      · intro visit goal how
        refine how.of_listed.imp_right ?_
        rintro ⟨hv, child, hc, hg⟩
        exact ⟨hv, _, mem_map_of_mem hc, hg⟩
      · rintro outer goal - rfl
        exact .inr rfl
      · intro other _ visit source destination hr
        exact .inl (by simpa using hr)

lemma sound_transferChildren (run : MutationRun σ)
    (h : Taken ct run (.transferDirectory source destination depth pr))
    (hr : ct.recurseCollections = true) (hlt : frame < run.frames.length) (hp : parentIn run.frames frame = pr)
    (hpr : ∀ o, pr = some o → Achieved run.events o (.transferred source true))
    (hf : ∀ source destination, .replacing frame source destination ∉ run.events) :
    Sound ct (ct.transferChildren run source destination depth frame) := by
  obtain ⟨hs, h⟩ := h
  have hmark : failedIn (marked run.frames frame) frame := failedIn_marked.mpr (.inr ⟨rfl, hlt⟩)
  have hfail := h.markFailed frame (by simp)
  unfold transferChildren
  split
  · rename_i error world _
    exact unread { run with world } hs hfail rfl hlt hp error source
  · rename_i sourceChildren world _
    have hlistedSafe := hs.snoc (.listed frame .transferSource source sourceChildren) trivial
    dsimp only
    split
    · rename_i error world _
      exact unread
        { run.record (.listed frame .transferSource source sourceChildren) with world } hlistedSafe
        (hfail.listFailed hmark _ _ _) rfl hlt hp error destination
    · rename_i destinationChildren world _
      exact sound_mergeDirectories _ (hlistedSafe.snoc
        (.listed frame .transferDestination destination destinationChildren) trivial) rfl h hr hlt hp hpr hf

lemma sound_prepare (run : MutationRun σ) (h : Taken ct run (.transferDirectory source destination depth pr))
    (hlt : frame < run.frames.length) (hp : parentIn run.frames frame = pr)
    (hf : ∀ source destination, .replacing frame source destination ∉ run.events) (command : DavMutationCommand)
    (hc : command = ⟨ct.operation, .prepareCollection, .destination, source, some destination⟩) : Sound ct (
      let (a, run) := run.issue ct.port command frame
      if a = false ∨ ct.recurseCollections = false then run.propagateFrameFailure frame
      else ct.transferChildren run source destination depth frame) := by
  obtain ⟨hs, h⟩ := h
  obtain ⟨-, hrc⟩ := h.fits _ mem_cons_self
  have hall : StepAllowed ct.operation run.events frame command :=
    h.stepAllowed (by simp [hc]) (by simp [hc]) (by simp [hc])
  have hansd : ∀ s, SafeEvents ct.operation (run.events ++ [.answered frame command s]) :=
    fun s => hs.snoc _ hall
  have howner : ∀ {frames}, parentIn frames frame = pr →
      ownerIn frames (.transferDirectory source destination depth pr) = parentIn frames frame :=
    fun hsm => (ownerIn_of_start rfl).trans hsm.symm
  have hiss := issued run ct.port command frame
  generalize run.issue ct.port command frame = result at hiss ⊢
  obtain ⟨a, run'⟩ := result
  cases hiss with
  | succeeded w b =>
    have hr := h.succeeded frame command
    have hprep : ∀ o, pr = some o → Achieved
        (run.events ++ [.answered frame command true]) o (.transferred source true) := by
      intro o ho
      have hopen := (h.opened frame (some o)).mpr ⟨hlt, hp.trans ho⟩
      exact ⟨frame, command, .inr (mem_append_left _ hopen), by simp, by simp [hc], by simp [hc]⟩
    dsimp only
    split
    · rename_i hflat
      have hflat := hflat.resolve_left (by simp)
      rw [propagateFrameFailure_eq]
      refine ⟨hansd true, fun _ => ?_⟩
      refine hr.leave (by simp) (howner hp) (fun i hi => by cases hi) ?_
      rintro o g ho (rfl | ⟨hmv, -⟩)
      · exact .inl (hprep o (hp.symm.trans ho))
      · cases hflat.symm.trans (hrc hmv)
    · rename_i hgo
      refine sound_transferChildren _ ⟨hansd true, hr⟩ (by simpa using (not_or.mp hgo).2) hlt hp hprep ?_
      intro sr' d' hrp
      exact hf sr' d' (by simpa [record] using hrp)
  | failed w b f =>
    obtain ⟨hm, hr⟩ := h.failed hlt command
    dsimp only
    rw [propagateFrameFailure_eq]
    refine ⟨hansd false, fun _ => ?_⟩
    exact hr.leave (by simp) (howner (parentIn_marked.trans hp))
      (fun i hi => by cases hi) fun _ _ _ _ => .inr hm
  | stopped w r =>
    dsimp only
    rw [propagateFrameFailure_eq]
    exact ⟨(hansd false).snoc _ trivial, fun hg => by cases hg⟩

theorem sound_transferDirectory (h : Taken ct run (.transferDirectory source destination depth pr)) :
    Sound ct (ct.transferDirectory run source destination depth pr) := by
  obtain ⟨hs, h⟩ := h
  refine visiting run hs fun budget => ?_
  have hopen := h.openFrame pr fun outer ho =>
    h.known _ mem_cons_self outer (.inl ho)
  have hopenedSafe : SafeEvents ct.operation
      (run.events ++ [.opened run.frames.length pr]) := hs.snoc _ trivial
  refine sound_prepare (({ run with budget } : MutationRun σ).openFrame pr).2 ⟨hopenedSafe, hopen⟩
    (by simp [openFrame]) parentIn_new ?_ _ rfl
  -- the frame is new, and nothing has been replaced in it
  intro source' destination' hr
  have hbef := h.replaced run.frames.length source' destination' (by simpa [openFrame, record] using hr)
  omega

/-- **One item of work.** -/
theorem sound_perform (h : Taken ct run i) : Sound ct (ct.perform run i) := by
  cases i with
  | transferDirectory source destination depth pr => exact sound_transferDirectory h
  | transferFile source destination depth pr => exact sound_transferFile h
  | replaceWithFile source destination depth pr => exact sound_replaceWithFile h
  | deleteNode p ic r depth pr =>
    cases ic with
    | false => exact sound_deleteFile h
    | true => exact sound_deleteCollection h
  | finalizeTransfer source frame => exact sound_finalizeTransfer h
  | finalizeFileReplacement source destination depth frame =>
    exact sound_finalizeFileReplacement h
  | finalizeDelete p r frame => exact sound_finalizeDelete h

end

/-! ## Executions -/

section

variable {co : MutationContext σ κ} {r : DavMutationRequest}

lemma rootWork_fits {root : Work} (h : rootWork r = some root) :
    root.closes = none ∧ root.starts = none ∧ root.Fits r.operation r.recurseCollections [] := by
  unfold rootWork at h
  split at h
  · rename_i hop _ _
    split at h
    · rename_i hrecurse
      cases h
      exact ⟨rfl, rfl, by simp [hop], fun _ => hrecurse⟩
    · cases h
  · rename_i hop
    cases h
    exact ⟨rfl, rfl, by simp [Work.Fits, deletionRole, hop]⟩
  · rename_i hop _ _ _
    cases h
    exact ⟨rfl, rfl, by simp [Work.Fits, hop]⟩
  · rename_i hop _ _ _
    cases h
    exact ⟨rfl, rfl, by simp [Work.Fits, hop]⟩
  · rename_i _ hop _ _ _
    cases h
    exact ⟨rfl, rfl, by simp [hop], by simp⟩
  · rename_i _ hop _ _ _
    cases h
    exact ⟨rfl, rfl, by simp [hop], by simp⟩
  · rename_i hop _ _
    cases h
    exact ⟨rfl, rfl, by simp [Work.Fits, hop]⟩
  · cases h

lemma coherent_root {r : Bool} {root : Work} (hc : root.closes = none) (hs : root.starts = none)
    (hft : root.Fits o r []) : Coherent o r [] [] [root] none where
  opened := by simp
  earlier := fun i ot ho => absurd (lt_of_parentIn ho) (Nat.not_lt_zero _)
  stacked := ⟨none, .start hc hs .nil⟩
  known := by
    intro item hm frame hf
    cases mem_singleton.mp hm
    rcases hf with hf | hf
    · cases hs.symm.trans hf
    · cases hc.symm.trans hf
  handed := fun i ot ho => absurd (lt_of_parentIn ho) (Nat.not_lt_zero _)
  marks := by
    rintro frame (⟨_, hm⟩ | ⟨_, hm⟩) <;> cases hm
  owed := by
    rintro frame g (⟨hm, -, -⟩ | hm) <;> cases hm
  going := by simp
  replaced := by simp
  fits := by
    intro item hm
    cases mem_singleton.mp hm
    exact hft

lemma sound_initialRun {root : Work} (w : σ) (b : DavTraversalBudget) (hrt : rootWork r = some root)
    (hop : co.operation = r.operation) (hr : co.recurseCollections = r.recurseCollections) :
    Sound co (initialRun w b root) := by
  obtain ⟨hc, hs, hf⟩ := rootWork_fits hrt
  unfold initialRun
  split
  · exact Sound.stopWith _ .nil _
  · exact ⟨.nil, fun _ => coherent_root hc hs (hop ▸ hr ▸ hf)⟩

variable [DecidableEq κ]

lemma Sound.step {run next : MutationRun σ} (h : Sound co run)
    (hst : co.step run = some next) : Sound co next := by
  obtain ⟨hs, world, rfl | ⟨item, work, hw, rfl⟩⟩ := step_cases hst
  · exact stopWith { run with world } h.safe _
  · have hcoh := h.coherent hs
    rw [hw] at hcoh
    exact sound_perform ⟨h.safe, hcoh⟩

/-- **Nothing is deleted that was not transferred.**  Every step of every execution, whatever the ports
answer and whenever it is cancelled, is allowed by what was recorded before it. -/
theorem recursive_mutation_safe (request : DavMutationRequest)
    (enumerator : DavDirectoryEnumerator σ κ) (port : DavMutationPort σ)
    (cancellation : DavCancellation σ) (limits : DavMutationExecutorLimits) (world : σ)
    {before : List MutationEvent} {event : MutationEvent} {after : List MutationEvent}
    (hsplit : (executeRecursiveMutation request enumerator port cancellation limits world).events =
      before ++ event :: after) :
    Allowed request.operation before event := by
  refine SafeEvents.allowed ?_ hsplit
  have hexec := executed request enumerator port cancellation limits world
  generalize executeRecursiveMutation request enumerator port cancellation limits world = report at hexec
  cases hexec with
  | refused s => exact .nil
  | @ran b root run hb hr hrn =>
    have hinit : Sound (requestContext request enumerator port cancellation limits)
        (initialRun world b root) := sound_initialRun world b hr rfl rfl
    rw [← hrn]
    exact (loop_keeps (fun _ _ => Sound.step) _ hinit).safe

end

/-! ## Two entries of one name -/

/-- A world that answers what it was told to: what the next pages list, and whether the next steps
succeed. -/
structure Script where
  listings : List (List DavDirectoryEntry)
  answers : List Bool

namespace Script

def enumerator : DavDirectoryEnumerator Script Unit where
  readDirectoryPage script _ :=
    (.ok ⟨script.listings.headD [], none⟩, { script with listings := script.listings.tail })

def port : DavMutationPort Script where
  execute script command :=
    (if script.answers.headD true then .ok () else .error (.status command.source 500),
      { script with answers := script.answers.tail })

/-- Nothing is cancelled. -/
def cancellation : DavCancellation Script := ⟨fun script => (false, script)⟩

def limits : DavMutationExecutorLimits := ⟨⟨16, 16, 4, none⟩, ⟨4, 2⟩, 4, 8⟩

/-- A MOVE of `/s/` to `/t/`. -/
def request : DavMutationRequest := ⟨.move, ⟨"/s/"⟩, .collection, some ⟨"/t/"⟩, none, false, true⟩

/-- `/s/` lists the collection `d` under two keys.  The first visit of `/s/d/` finds the file `f`, which
cannot be moved; the second finds nothing. -/
def sameName : Script where
  listings := [[⟨[0x64], [1], true⟩, ⟨[0x64], [2], true⟩], [], [⟨[0x66], [1], false⟩], [], [], []]
  answers := [true, true, false]

def run : MutationReport Script :=
  executeRecursiveMutation request enumerator port cancellation limits sameName

/-- The deletion of `/s/d/`. -/
def deletion : DavMutationCommand := ⟨.move, .deleteCollection, .source, ⟨"/s/d/"⟩, none⟩

def succeeded : MutationEvent → Option DavPath
  | .answered _ command true => some command.source
  | _ => none

end Script

open Script

/-- The deletion of `/s/d/` is allowed by what its own visit recorded. -/
theorem recursive_mutation_safe_sameName : Allowed .move (run.events.take 13) (.answered 2 deletion true) :=
  recursive_mutation_safe request enumerator port cancellation limits sameName (show run.events =
      run.events.take 13 ++ .answered 2 deletion true :: [] by decide)

/-- **Two visits of one name.**  `/s/d/` is deleted although the file that its first visit found there was
never moved. -/
theorem deleted_before_transferred : ∃ before after visit children,
    run.events = before ++ .answered 2 deletion true :: after ∧
    .listed visit .transferSource ⟨"/s/d/"⟩ children ∈ before ∧
    ⟨[0x66], [1], ⟨"/s/d/f"⟩, false⟩ ∈ children ∧
    ∀ frame, ¬ Achieved before frame (.transferred ⟨"/s/d/f"⟩ false) := by
  refine ⟨run.events.take 13, [], 1, [⟨[0x66], [1], ⟨"/s/d/f"⟩, false⟩], by decide, by decide,
    by decide, ?_⟩
  rintro frame ⟨i, command, -, ha, hs, -⟩
  have hnone : ⟨"/s/d/f"⟩ ∉ (run.events.take 13).filterMap succeeded := by decide
  refine hnone (mem_filterMap.mpr ⟨_, ha, ?_⟩)
  rw [succeeded, hs]

end AsterForge.Webdav
