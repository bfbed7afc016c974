import AsterForge.Library.WorkStack
import AsterForge.Webdav.Mutation
/-!
# What a recursive mutation has promised
A visit of a collection lists it, and so owes something for every child: that it is transferred, that it
is deleted.  As long as a visit has not failed, what it owes has been done or an item on the stack
promises it.
* `Owes`, `Achieved`, `FailedIn` — what a visit owes, what was done for it, and its failures, all from
  the record.
* `Coherent.openFrame`, `Coherent.record`, `Coherent.markFailed`, `Coherent.propagate`,
  **`Coherent.advance`** — how it is kept.
* **`Coherent.settled`** — where a frame that has not failed is about to be closed, everything owed in it
  and below it is done.
-/
namespace AsterForge.Webdav
open AsterForge.Core Library Work List Option
/-! ## The record -/
/-- What a visit can owe. -/
inductive Goal
  /-- A child is transferred: a file is copied or moved, a collection is prepared. -/
  | transferred (path : DavPath) (isCollection : Bool)
  | deleted (role : DavMutationTargetRole) (path : DavPath) (isCollection : Bool)
def DavMutationCommand.Achieves (command : DavMutationCommand) : Goal → Prop
  | .transferred path isCollection =>
    command.source = path ∧ command.step = if isCollection then .prepareCollection
        else if command.operation = .move then .moveFile else .copyFile
  | .deleted role path isCollection =>
    command.source = path ∧ command.role = role ∧
      command.step = if isCollection then .deleteCollection else .deleteFile
/-- What has to be done for a child of a directory that is listed for a purpose: a source child is
transferred, and in a MOVE a source collection is deleted; a child of what is deleted is deleted. -/
def ListingPurpose.Requires (operation : DavMutationOperation) (child : Child) (goal : Goal) :
    ListingPurpose → Prop
  | .transferSource =>
    goal = .transferred child.path child.isCollection ∨
      (operation = .move ∧ child.isCollection = true ∧ goal = .deleted .source child.path true)
  | .transferDestination => False
  | .deletion role => goal = .deleted role child.path child.isCollection
section
variable (operation : DavMutationOperation) (events : List MutationEvent) (frame : ℕ)
/-- What a visit owes: what its listings require, and the deletion of a collection that a file
replaces. -/
inductive Owes : Goal → Prop
  | listed {purpose : ListingPurpose} {path : DavPath} {children : List Child} {child : Child}
      {goal : Goal} (hlisted : .listed frame purpose path children ∈ events)
      (hchild : child ∈ children) (hgoal : purpose.Requires operation child goal) : Owes goal
  | clearing {source destination : DavPath} (hreplacing : .replacing frame source destination ∈ events) :
      Owes (.deleted .destination destination true)
/-- What is owed was done: by a step of the visit, or of a visit it opened. -/
def Achieved (goal : Goal) : Prop :=
  ∃ inner command, (inner = frame ∨ .opened inner (some frame) ∈ events) ∧
    .answered inner command true ∈ events ∧ command.Achieves goal
/-- A step of the visit failed, or a directory of the visit could not be read. -/
def FailedIn : Prop :=
  (∃ command, .answered frame command false ∈ events) ∨ ∃ path, .unreadable frame path ∈ events
end
variable {o : DavMutationOperation} {ev ev' : List MutationEvent} {frame : ℕ} {goal : Goal}
lemma Achieved.mono (hs : ev ⊆ ev') (h : Achieved ev frame goal) : Achieved ev' frame goal := by
  obtain ⟨i, c, hi, han, ha⟩ := h
  exact ⟨i, c, hi.imp_right fun ho => hs ho, hs han, ha⟩
/-! ## The stack -/
namespace Work
def starts : Work → Option ℕ
  | .transferDirectory _ _ _ parent | .transferFile _ _ _ parent | .replaceWithFile _ _ _ parent
  | .deleteNode _ _ _ _ parent => parent
  | .finalizeTransfer _ _ | .finalizeFileReplacement _ _ _ _ | .finalizeDelete _ _ _ => none
def closes : Work → Option ℕ
  | .finalizeTransfer _ frame | .finalizeFileReplacement _ _ _ frame | .finalizeDelete _ _ frame =>
    some frame
  | .transferDirectory _ _ _ _ | .transferFile _ _ _ _ | .replaceWithFile _ _ _ _
  | .deleteNode _ _ _ _ _ => none
def Promises (operation : DavMutationOperation) (goal : Goal) : Work → Prop
  | .transferDirectory source _ _ _ =>
    goal = .transferred source true ∨ (operation = .move ∧ goal = .deleted .source source true)
  | .transferFile source _ _ _ | .replaceWithFile source _ _ _
  | .finalizeFileReplacement source _ _ _ => goal = .transferred source false
  | .deleteNode path isCollection role _ _ => goal = .deleted role path isCollection
  | .finalizeTransfer source _ => operation = .move ∧ goal = .deleted .source source true
  | .finalizeDelete path role _ => goal = .deleted role path true
def deletionRole (operation : DavMutationOperation) : DavMutationTargetRole :=
  if operation = .delete then .source else .destination
def Fits (operation : DavMutationOperation) (recurseCollections : Bool)
    (events : List MutationEvent) : Work → Prop
  | .transferDirectory _ _ _ _ =>
    operation ≠ .delete ∧ (operation = .move → recurseCollections = true)
  | .transferFile _ _ _ parent =>
    operation ≠ .delete ∧ ∀ frame ∈ parent, ∀ source destination, .replacing frame source destination ∉ events
  | .replaceWithFile _ _ _ _ | .finalizeFileReplacement _ _ _ _ => operation ≠ .delete
  | .deleteNode _ _ role _ _ => role = deletionRole operation
  | .finalizeTransfer source frame =>
    operation ≠ .delete ∧ ∃ children, .listed frame .transferSource source children ∈ events
  | .finalizeDelete path role frame =>
    role = deletionRole operation ∧ ∃ children, .listed frame (.deletion role) path children ∈ events
end Work
/-! ## Frames -/
section
variable (frames : List Frame)
def parentIn (frame : ℕ) : Option ℕ := frames[frame]?.bind Frame.parent
def failedIn (frame : ℕ) : Prop := ∃ parent, frames[frame]? = some ⟨parent, true⟩
def marked (frame : ℕ) : List Frame :=
  frames.modify frame fun entry => { entry with failed := true }
variable {f : List Frame} {fr ot : ℕ} {parent : Option ℕ}
lemma getElem?_marked : (marked f fr)[ot]? =
    f[ot]?.map fun e => if fr = ot then { e with failed := true } else e := by
  rw [marked]
  by_cases hsame : fr = ot
  · simp [hsame]
  · simp [hsame]
@[simp] lemma parentIn_marked : parentIn (marked f fr) ot = parentIn f ot := by
  rw [parentIn, parentIn, getElem?_marked]
  cases f[ot]? with
  | none => rfl
  | some e => by_cases hsame : fr = ot <;> simp [hsame]
lemma failedIn_marked : failedIn (marked f fr) ot ↔ failedIn f ot ∨ (ot = fr ∧ fr < f.length) := by
  unfold failedIn
  rw [getElem?_marked]
  by_cases hsame : ot = fr
  · subst hsame
    by_cases hlt : ot < f.length
    · simp [hlt]
    · simp [hlt]
  · have hne : fr ≠ ot := fun h => hsame h.symm
    cases hget : f[ot]? with
    | none => simp [hsame]
    | some e => simp [hne, hsame]
lemma length_marked : (marked f fr).length = f.length := length_modify ..
lemma parentIn_append (hlt : ot < f.length) : parentIn (f ++ [⟨parent, false⟩]) ot = parentIn f ot := by
  rw [parentIn, parentIn, getElem?_append_left hlt]
lemma parentIn_new : parentIn (f ++ [⟨parent, false⟩]) f.length = parent := by
  rw [parentIn, getElem?_append_right le_rfl, Nat.sub_self]
  rfl
lemma failedIn_append : failedIn (f ++ [⟨parent, false⟩]) ot ↔ failedIn f ot := by
  unfold failedIn
  by_cases hlt : ot < f.length
  · rw [getElem?_append_left hlt]
  · have hnone : f[ot]? = none := getElem?_eq_none (by omega)
    rw [getElem?_append_right (by omega), hnone]
    cases hindex : ot - f.length with
    | zero => simp
    | succ i => simp
def propagated (frame : ℕ) : List Frame :=
  match frames[frame]? with
  | some ⟨some parent, true⟩ => marked frames parent
  | _ => frames
lemma propagated_cases (frm : ℕ) :
    (∃ outer, parentIn frames frm = some outer ∧ failedIn frames frm ∧
      propagated frames frm = marked frames outer) ∨
    (∀ outer, parentIn frames frm = some outer → ¬ failedIn frames frm) ∧ propagated frames frm = frames := by
  unfold propagated parentIn failedIn
  cases hget : frames[frm]? with
  | none => exact .inr ⟨by simp, rfl⟩
  | some e =>
    obtain ⟨parent, f⟩ := e
    cases parent with
    | none => exact .inr ⟨by simp, rfl⟩
    | some outer =>
      cases f with
      | false => exact .inr ⟨by simp, rfl⟩
      | true => exact .inl ⟨outer, rfl, ⟨_, rfl⟩, rfl⟩
@[simp] lemma parentIn_propagated : parentIn (propagated f fr) ot = parentIn f ot := by
  rcases propagated_cases f fr with ⟨outer, -, -, heq⟩ | ⟨-, heq⟩
  · rw [heq, parentIn_marked]
  · rw [heq]
variable {ou : ℕ}
lemma failedIn_propagated (hp : parentIn f fr = some ou)
    (hlt : ou < f.length) (hf : failedIn (propagated f fr) fr) : failedIn (propagated f fr) ou := by
  rcases propagated_cases f fr with ⟨o', hp', -, heq⟩ | ⟨hn, heq⟩
  · rw [heq]
    cases hp.symm.trans hp'
    exact failedIn_marked.mpr (.inr ⟨rfl, hlt⟩)
  · rw [heq] at hf
    exact absurd hf (hn ou hp)
lemma failedIn.propagated (h : failedIn f ot) : failedIn (propagated f fr) ot := by
  rcases propagated_cases f fr with ⟨ou, -, -, heq⟩ | ⟨-, heq⟩
  · rw [heq]
    exact failedIn_marked.mpr (.inl h)
  · rwa [heq]
lemma lt_of_failedIn (h : failedIn f fr) : fr < f.length := by
  obtain ⟨parent, hg⟩ := h
  exact (List.getElem?_eq_some_iff.mp hg).1
lemma lt_of_parentIn (h : parentIn f fr = some ou) : fr < f.length := by
  obtain ⟨e, hg, -⟩ := bind_eq_some_iff.mp h
  exact (List.getElem?_eq_some_iff.mp hg).1
end
/-! ## The invariant -/
def Work.ownerIn (frames : List Frame) (item : Work) : Option ℕ :=
  owner Work.starts Work.closes (parentIn frames) item
variable {frames : List Frame}
lemma Work.ownerIn_of_start {item : Work} (h : item.closes = none) : item.ownerIn frames = item.starts := by
  unfold ownerIn owner
  rw [h]
lemma Work.ownerIn_of_closes {item : Work} (h : item.closes = some frame) :
    item.ownerIn frames = parentIn frames frame := by
  unfold ownerIn owner
  rw [h]
/-- Frames, record and stack fit together.  `leaving` is a frame that has failed and has yet to hand its
failure to its parent. -/
structure Coherent (operation : DavMutationOperation) (recurseCollections : Bool)
    (frames : List Frame) (events : List MutationEvent) (work : List Work) (leaving : Option ℕ) : Prop where
  opened : ∀ frame parent, .opened frame parent ∈ events ↔
    frame < frames.length ∧ parentIn frames frame = parent
  earlier : ∀ inner outer, parentIn frames inner = some outer → outer < inner
  stacked : ∃ innermost, Stacked Work.starts Work.closes (parentIn frames) innermost work
  known : ∀ item ∈ work, ∀ frame, item.starts = some frame ∨ item.closes = some frame → frame < frames.length
  handed : ∀ inner outer, parentIn frames inner = some outer → failedIn frames inner →
    failedIn frames outer ∨ (∃ item ∈ work, item.closes = some inner) ∨ leaving = some inner
  marks : ∀ frame, FailedIn events frame → failedIn frames frame
  owed : ∀ frame goal, Owes operation events frame goal → Achieved events frame goal ∨
    failedIn frames frame ∨ ∃ item ∈ work, item.ownerIn frames = some frame ∧ item.Promises operation goal
  going : ∀ reason, .stopped reason ∉ events
  replaced : ∀ frame source destination, .replacing frame source destination ∈ events → frame < frames.length
  fits : ∀ item ∈ work, item.Fits operation recurseCollections events
/-- A record that grew by listings, answers and replacements. -/
structure Grown (frames : List Frame) (events events' : List MutationEvent) : Prop where
  sub : events ⊆ events'
  opened : ∀ frame parent, .opened frame parent ∈ events' → .opened frame parent ∈ events
  failed : ∀ frame, FailedIn events' frame → FailedIn events frame ∨ failedIn frames frame
  going : ∀ reason, .stopped reason ∈ events' → .stopped reason ∈ events
  replaced : ∀ frame source destination, .replacing frame source destination ∈ events' →
    .replacing frame source destination ∈ events ∨ frame < frames.length
lemma grown_refl : Grown frames ev ev where
  sub := fun _ h => h
  opened := fun _ _ h => h
  failed := fun _ h => .inl h
  going := fun _ h => h
  replaced := fun _ _ _ h => .inl h
lemma Grown.trans {e'' : List MutationEvent} (h : Grown frames ev ev') (h' : Grown frames ev' e'') :
    Grown frames ev e'' where
  sub := fun _ hm => h'.sub (h.sub hm)
  opened := fun frame parent hm => h.opened frame parent (h'.opened frame parent hm)
  failed := by
    intro frame hf
    rcases h'.failed frame hf with hb | hmr
    · exact h.failed frame hb
    · exact .inr hmr
  going := fun r hm => h.going r (h'.going r hm)
  replaced := by
    intro frame source destination hm
    rcases h'.replaced frame source destination hm with hb | hlt
    · exact h.replaced frame source destination hb
    · exact .inr hlt
variable {p : ListingPurpose} {pt sr ds : DavPath} {ch : List Child} {v : ℕ}
lemma grown_listed : Grown frames ev (ev ++ [.listed frame p pt ch]) where
  sub := subset_append_left ..
  opened := fun _ _ hm => by simpa using hm
  failed := fun _ hf => .inl (by simpa [FailedIn] using hf)
  going := fun _ hm => by simpa using hm
  replaced := fun _ _ _ hm => .inl (by simpa using hm)
lemma grown_replacing (hlt : frame < frames.length) : Grown frames ev (ev ++ [.replacing frame sr ds]) where
  sub := subset_append_left ..
  opened := fun _ _ hm => by simpa using hm
  failed := fun _ hf => .inl (by simpa [FailedIn] using hf)
  going := fun _ hm => by simpa using hm
  replaced := by
    intro v s' d' hm
    rcases mem_append.mp hm with hl | hn
    · exact .inl hl
    · cases mem_singleton.mp hn
      exact .inr hlt
lemma Owes.of_listed (h : Owes o (ev ++ [.listed frame p pt ch]) v goal) : Owes o ev v goal ∨
    (v = frame ∧ ∃ c ∈ ch, p.Requires o c goal) := by
  cases h with
  | listed hl hc hg =>
    rcases mem_append.mp hl with hd | hn
    · exact .inl (.listed hd hc hg)
    · cases mem_singleton.mp hn
      exact .inr ⟨rfl, _, hc, hg⟩
  | clearing hr => exact .inl (.clearing (by simpa using hr))
lemma Owes.of_replacing (h : Owes o (ev ++ [.replacing frame sr ds]) v goal) : Owes o ev v goal ∨
    (v = frame ∧ goal = .deleted .destination ds true) := by
  cases h with
  | listed hl hc hg => exact .inl (.listed (by simpa using hl) hc hg)
  | clearing hr =>
    rcases mem_append.mp hr with hd | hn
    · exact .inl (.clearing hd)
    · cases mem_singleton.mp hn
      exact .inr ⟨rfl, rfl⟩
namespace Coherent
variable {rc : Bool} {fm : List Frame} {w w' r : List Work} {leaving : Option ℕ}
/-- **How the invariant goes on**: the record grows, and the stack changes such that whatever was
promised is done, is void, or is promised again. -/
theorem advance (h : Coherent o rc fm ev w leaving) (hg : Grown fm ev ev')
    (hos : ∀ frame goal, Owes o ev' frame goal → Owes o ev frame goal ∨
      failedIn fm frame ∨ ∃ item ∈ w', item.ownerIn fm = some frame ∧ item.Promises o goal)
    (hp : ∀ item ∈ w, ∀ frame goal, item.ownerIn fm = some frame →
      item.Promises o goal → Achieved ev' frame goal ∨ failedIn fm frame ∨
        ∃ other ∈ w', other.ownerIn fm = some frame ∧ other.Promises o goal)
    (hcl : ∀ item ∈ w, ∀ i outer, item.closes = some i →
      parentIn fm i = some outer → failedIn fm i → failedIn fm outer ∨ ∃ other ∈ w', other.closes = some i)
    (hs : ∃ it, Stacked starts closes (parentIn fm) it w')
    (hk : ∀ item ∈ w', ∀ frame, item.starts = some frame ∨ item.closes = some frame → frame < fm.length)
    (hft : ∀ item ∈ w', item.Fits o rc ev') :
    Coherent o rc fm ev' w' leaving where
  opened := by
    intro frame parent
    rw [← h.opened]
    exact ⟨hg.opened frame parent, fun hop => hg.sub hop⟩
  earlier := h.earlier
  stacked := hs
  known := hk
  handed := by
    intro i outer hpa hf
    rcases h.handed i outer hpa hf with ho | ⟨item, hm, hc⟩ | hl
    · exact .inl ho
    · exact (hcl item hm i outer hc hpa hf).imp_right .inl
    · exact .inr (.inr hl)
  marks := by
    intro frame hf
    exact (hg.failed frame hf).elim (h.marks frame) id
  owed := by
    intro frame goal hod
    rcases hos frame goal hod with hb | hf | hpr
    · rcases h.owed frame goal hb with ha | hf | ⟨item, hm, how, hgl⟩
      · exact .inl (ha.mono hg.sub)
      · exact .inr (.inl hf)
      · exact hp item hm frame goal how hgl
    · exact .inr (.inl hf)
    · exact .inr (.inr hpr)
  going := fun r hst => h.going r (hg.going r hst)
  replaced := by
    intro frame sr ds hr
    exact (hg.replaced frame sr ds hr).elim (h.replaced frame _ _) id
  fits := hft
variable {im : Work}
lemma fits_of_grown (h : Coherent o rc fm ev w leaving) (hs : ev ⊆ ev') (hm : im ∈ w)
    (hr : ∀ frame sr ds, .replacing frame sr ds ∈ ev' →
      .replacing frame sr ds ∈ ev ∨ im.starts ≠ some frame) :
    im.Fits o rc ev' := by
  have hfits := h.fits im hm
  cases im with
  | transferDirectory => exact hfits
  | replaceWithFile => exact hfits
  | finalizeFileReplacement => exact hfits
  | deleteNode => exact hfits
  | transferFile sr ds dp parent =>
    refine ⟨hfits.1, ?_⟩
    rintro frame hp s' d' hn
    rcases hr frame _ _ hn with hd | hne
    · exact hfits.2 frame hp _ _ hd
    · exact hne hp
  | finalizeTransfer | finalizeDelete =>
    exact ⟨hfits.1, hfits.2.imp fun _ hl => hs hl⟩
lemma record (h : Coherent o rc fm ev w leaving) {e : MutationEvent}
    (he : (∃ frame c s, e = .answered frame c s) ∨ ∃ frame pt, e = .unreadable frame pt)
    (hf : ∀ frame, FailedIn [e] frame → failedIn fm frame) : Coherent o rc fm (ev ++ [e]) w leaving := by
  have hother : ∀ other, other ∈ ev ++ [e] → other = e ∨ other ∈ ev := by
    intro other hm
    rcases mem_append.mp hm with hl | hn
    · exact .inr hl
    · exact .inl (mem_singleton.mp hn)
  have hsub : ev ⊆ ev ++ [e] := subset_append_left ..
  have hrepl : ∀ frame sr ds, .replacing frame sr ds ∈ ev ++ [e] → .replacing frame sr ds ∈ ev := by
    intro frame sr ds hm
    rcases hother _ hm with rfl | hl
    · rcases he with ⟨_, _, _, he⟩ | ⟨_, _, he⟩ <;> cases he
    · exact hl
  refine h.advance ⟨hsub, ?_, ?_, ?_, fun _ _ _ hm => .inl (hrepl _ _ _ hm)⟩ ?_ ?_ ?_ h.stacked h.known ?_
  · intro frame parent hm
    rcases hother _ hm with rfl | hl
    · rcases he with ⟨_, _, _, he⟩ | ⟨_, _, he⟩ <;> cases he
    · exact hl
  · rintro frame (⟨c, hm⟩ | ⟨pt, hm⟩)
    · rcases hother _ hm with rfl | hl
      · exact .inr (hf frame (.inl ⟨c, mem_singleton_self _⟩))
      · exact .inl (.inl ⟨c, hl⟩)
    · rcases hother _ hm with rfl | hl
      · exact .inr (hf frame (.inr ⟨pt, mem_singleton_self _⟩))
      · exact .inl (.inr ⟨pt, hl⟩)
  · intro r hm
    rcases hother _ hm with rfl | hl
    · rcases he with ⟨_, _, _, he⟩ | ⟨_, _, he⟩ <;> cases he
    · exact hl
  · rintro frame goal how
    refine .inl ?_
    cases how with
    | listed hls hch hg =>
      rcases hother _ hls with rfl | hl
      · rcases he with ⟨_, _, _, he⟩ | ⟨_, _, he⟩ <;> cases he
      · exact .listed hl hch hg
    | clearing hm => exact .clearing (hrepl _ _ _ hm)
  · intro im hm frame goal ho hg
    exact .inr (.inr ⟨im, hm, ho, hg⟩)
  · intro im hm i outer hc _ _
    exact .inr ⟨im, hm, hc⟩
  · intro im hm
    exact h.fits_of_grown hsub hm fun _ _ _ hn => .inl (hrepl _ _ _ hn)
/-- **A new frame**, in a frame that is there. -/
theorem openFrame (h : Coherent o rc fm ev w none) (pr : Option ℕ) (hp : ∀ outer ∈ pr, outer < fm.length) :
    Coherent o rc (fm ++ [⟨pr, false⟩]) (ev ++ [.opened fm.length pr]) w none := by
  have hold : ∀ {frame}, frame < fm.length →
      parentIn (fm ++ [⟨pr, false⟩]) frame = parentIn fm frame := parentIn_append
  have hlen : (fm ++ [(⟨pr, false⟩ : Frame)]).length = fm.length + 1 := by simp
  have hsub : ev ⊆ ev ++ [.opened fm.length pr] := subset_append_left ..
  have howner : ∀ im ∈ w, im.ownerIn (fm ++ [⟨pr, false⟩]) = im.ownerIn fm := by
    intro im hm
    unfold ownerIn owner
    cases hc : im.closes with
    | none => rfl
    | some frame => exact hold (h.known im hm frame (.inr hc))
  refine ⟨?_, ?_, ?_, ?_, ?_, ?_, ?_, ?_, ?_, ?_⟩
  · intro frame p'
    rw [mem_append, mem_singleton, h.opened]
    constructor
    · rintro (⟨hlt, hs⟩ | hn)
      · exact ⟨by omega, (hold hlt).trans hs⟩
      · cases hn
        exact ⟨by omega, parentIn_new⟩
    · rintro ⟨hlt, hs⟩
      by_cases hf : frame < fm.length
      · exact .inl ⟨hf, (hold hf).symm.trans hs⟩
      · have hn : frame = fm.length := by omega
        subst hn
        rw [parentIn_new] at hs
        rw [hs]
        exact .inr rfl
  · intro i outer ho
    by_cases hf : i < fm.length
    · exact h.earlier i outer ((hold hf).symm.trans ho)
    · have hlt := lt_of_parentIn ho
      have hn : i = fm.length := by omega
      subst hn
      rw [parentIn_new] at ho
      exact hp outer ho
  · obtain ⟨it, hst⟩ := h.stacked
    exact ⟨it, hst.congr fun im hm frame hc =>
      hold (h.known im hm frame (.inr hc))⟩
  · intro im hm frame hf
    have hlt := h.known im hm frame hf
    omega
  · intro i outer ho hfl
    rw [failedIn_append] at hfl ⊢
    rw [hold (lt_of_failedIn hfl)] at ho
    exact h.handed i outer ho hfl
  · intro frame hfl
    rw [failedIn_append]
    refine h.marks frame ?_
    rcases hfl with ⟨c, hm⟩ | ⟨pt, hm⟩
    · exact .inl ⟨c, by simpa using hm⟩
    · exact .inr ⟨pt, by simpa using hm⟩
  · intro frame goal how
    have hbef : Owes o ev frame goal := by
      cases how with
      | listed hl hch hg => exact .listed (by simpa using hl) hch hg
      | clearing hm => exact .clearing (by simpa using hm)
    rw [failedIn_append]
    rcases h.owed frame goal hbef with ha | hfl | ⟨im, hm, hi, hg⟩
    · exact .inl (ha.mono hsub)
    · exact .inr (.inl hfl)
    · exact .inr (.inr ⟨im, hm, (howner im hm).trans hi, hg⟩)
  · intro r hm
    exact h.going r (by simpa using hm)
  · intro frame sr ds hm
    have hlt := h.replaced frame sr ds (by simpa using hm)
    omega
  · intro im hm
    exact h.fits_of_grown hsub hm fun _ _ _ hn => .inl (by simpa using hn)
section
variable (h : Coherent o rc fm ev w leaving)
include h
lemma markFailed (frm : ℕ) (hl : ∀ i ∈ leaving, ∀ outer, parentIn fm i = some outer → outer = frm) :
    Coherent o rc (marked fm frm) ev w (some frm) := by
  have hparents : parentIn (marked fm frm) = parentIn fm := funext fun _ => parentIn_marked
  have howner : ∀ im, ownerIn (marked fm frm) im = ownerIn fm im := by
    intro im
    rw [ownerIn, hparents, ownerIn]
  refine ⟨?_, ?_, ?_, ?_, ?_, ?_, ?_, h.going, ?_, h.fits⟩
  · rw [hparents, length_marked]
    exact h.opened
  · rw [hparents]
    exact h.earlier
  · rw [hparents]
    exact h.stacked
  · rw [length_marked]
    exact h.known
  · intro i outer ho hf
    rw [hparents] at ho
    rcases failedIn_marked.mp hf with hb | ⟨rfl, -⟩
    · rcases h.handed i outer ho hb with hh | hop | rfl
      · exact .inl (failedIn_marked.mpr (.inl hh))
      · exact .inr (.inl hop)
      · have hframe := hl i rfl outer ho
        have hlt := h.earlier i outer ho
        have hinner := lt_of_failedIn hb
        exact .inl (failedIn_marked.mpr (.inr ⟨hframe, by omega⟩))
    · exact .inr (.inr rfl)
  · intro other hf
    exact failedIn_marked.mpr (.inl (h.marks other hf))
  · intro other goal how
    rcases h.owed other goal how with ha | hf | ⟨im, hm, hi, hg⟩
    · exact .inl ha
    · exact .inr (.inl (failedIn_marked.mpr (.inl hf)))
    · exact .inr (.inr ⟨im, hm, (howner im).trans hi, hg⟩)
  · rw [length_marked]
    exact h.replaced
lemma stay (hop : ∀ frame ∈ leaving, ∀ outer, parentIn fm frame = some outer →
      failedIn fm frame → failedIn fm outer ∨ ∃ im ∈ w, im.closes = some frame) :
    Coherent o rc fm ev w none where
  __ := h
  handed := by
    intro i outer ho hf
    rcases h.handed i outer ho hf with hh | hc | rfl
    · exact .inl hh
    · exact .inr (.inl hc)
    · exact (hop i rfl outer ho hf).imp_right .inl
lemma open_of_owner (hm : im ∈ w) {frm : ℕ} (ho : im.ownerIn fm = some frm) :
    ∃ other ∈ w, other.closes = some frm := by
  obtain ⟨i, hs⟩ := h.stacked
  exact hs.open_of_owner (.inr ⟨im, hm, ho⟩)
/-- **A frame that is left** hands its failure to its parent, which is open. -/
lemma propagate (hl : ∀ i ∈ leaving, i = frame)
    (hop : ∀ outer, parentIn fm frame = some outer → ∃ im ∈ w, im.closes = some outer) :
    Coherent o rc (propagated fm frame) ev w none := by
  rcases propagated_cases fm frame with ⟨outer, hp, -, heq⟩ | ⟨hn, heq⟩
  · rw [heq]
    refine (h.markFailed outer ?_).stay ?_
    · intro i hi other ho
      rw [hl i hi, hp] at ho
      exact (some.inj ho).symm
    · rintro i ⟨⟩ _ _ _
      exact .inr (hop outer hp)
  · rw [heq]
    refine h.stay ?_
    intro i hi outer hp hf
    rw [hl i hi] at hp hf
    exact absurd hf (hn outer hp)
end
lemma discharge (h : Coherent o rc fm ev (im :: r) none)
    (hp : ∀ frame goal, im.ownerIn fm = some frame → im.Promises o goal →
      Achieved ev frame goal ∨ failedIn fm frame)
    (hcl : ∀ i outer, im.closes = some i → parentIn fm i = some outer → failedIn fm i → failedIn fm outer) :
    Coherent o rc fm ev r none := by
  refine h.advance grown_refl (fun _ _ => .inl) ?_ ?_ ?_ ?_ ?_
  · intro other hm frame goal ho hg
    rcases mem_cons.mp hm with rfl | hm
    · exact (hp frame goal ho hg).imp_right .inl
    · exact .inr (.inr ⟨other, hm, ho, hg⟩)
  · intro other hm i outer hc hpr hf
    rcases mem_cons.mp hm with rfl | hm
    · exact .inl (hcl i outer hc hpr hf)
    · exact .inr ⟨other, hm, hc⟩
  · obtain ⟨it, hs⟩ := h.stacked
    exact ⟨_, hs.tail⟩
  · exact fun other hm => h.known other (mem_cons_of_mem _ hm)
  · exact fun other hm => h.fits other (mem_cons_of_mem _ hm)
/-- **A visit that ends**: its frame hands on its failure, and what its item promised is done unless the
frame has failed. -/
theorem leave (h : Coherent o rc fm ev (im :: r) leaving) (hl : ∀ i ∈ leaving, i = frame)
    (how : im.ownerIn fm = parentIn fm frame) (hc : ∀ i, im.closes = some i → i = frame)
    (hp : ∀ outer goal, parentIn fm frame = some outer → im.Promises o goal →
      Achieved ev outer goal ∨ failedIn fm frame) :
    Coherent o rc (propagated fm frame) ev r none := by
  have hopen : ∀ outer, parentIn fm frame = some outer → ∃ other ∈ im :: r, other.closes = some outer :=
    fun outer ho => h.open_of_owner mem_cons_self (how.trans ho)
  have harrived : ∀ outer, parentIn fm frame = some outer →
      failedIn (propagated fm frame) frame → failedIn (propagated fm frame) outer := by
    intro outer ho
    have hlt := h.earlier frame outer ho
    have hframe := lt_of_parentIn ho
    exact failedIn_propagated ho (by omega)
  have hparents : parentIn (propagated fm frame) = parentIn fm :=
    funext fun _ => parentIn_propagated
  refine (h.propagate hl hopen).discharge ?_ ?_
  · intro outer goal ho hg
    rw [ownerIn, hparents] at ho
    replace ho : parentIn fm frame = some outer := how.symm.trans ho
    exact (hp outer goal ho hg).imp_right fun hf =>
      harrived outer ho hf.propagated
  · intro i outer hi ho hf
    cases hc i hi
    rw [hparents] at ho
    exact harrived outer ho hf
lemma succeeded (h : Coherent o rc fm ev w leaving) (frm : ℕ) (c : DavMutationCommand) :
    Coherent o rc fm (ev ++ [.answered frm c true]) w leaving := by
  refine h.record (.inl ⟨frm, c, true, rfl⟩) ?_
  rintro other (⟨_, hm⟩ | ⟨_, hm⟩) <;> simp at hm
lemma failed (h : Coherent o rc fm ev w none) (hf : frame < fm.length) (c : DavMutationCommand) :
    failedIn (marked fm frame) frame ∧ Coherent o rc (marked fm frame)
      (ev ++ [.answered frame c false]) w (some frame) := by
  have hmark : failedIn (marked fm frame) frame := failedIn_marked.mpr (.inr ⟨rfl, hf⟩)
  refine ⟨hmark, (h.markFailed frame (by simp)).record (.inl ⟨frame, c, false, rfl⟩) ?_⟩
  rintro other (⟨_, hm⟩ | ⟨_, hm⟩)
  · simp only [mem_singleton, MutationEvent.answered.injEq] at hm
    exact hm.1 ▸ hmark
  · simp at hm
lemma listFailed (h : Coherent o rc fm ev w leaving)
    (hf : failedIn fm frame) (purpose : ListingPurpose) (path : DavPath) (children : List Child) :
    Coherent o rc fm (ev ++ [.listed frame purpose path children]) w
      leaving := by
  refine h.advance grown_listed ?_ ?_ ?_ h.stacked h.known ?_
  · intro v goal how
    rcases how.of_listed with hb | ⟨rfl, -⟩
    · exact .inl hb
    · exact .inr (.inl hf)
  · intro im hm v goal ho hg
    exact .inr (.inr ⟨im, hm, ho, hg⟩)
  · intro im hm i outer hc _ _
    exact .inr ⟨im, hm, hc⟩
  · intro im hm
    exact h.fits_of_grown (subset_append_left ..) hm fun _ _ _ hn => .inl (by simpa using hn)
/-- **An item that opened a frame** leaves the frame's items and the one that closes it. -/
theorem push (h : Coherent o rc fm ev (im :: r) none) (i : List Work) (l : Work) (hst : im.closes = none)
    (hf : frame < fm.length) (hpa : parentIn fm frame = im.starts) (hgr : Grown fm ev ev')
    (hi : ∀ other ∈ i, other.closes = none ∧ other.starts = some frame ∧ other.Fits o rc ev')
    (hl : l.closes = some frame ∧ l.starts = none ∧ l.Fits o rc ev')
    (how : ∀ v goal, Owes o ev' v goal → Owes o ev v goal ∨ (v = frame ∧ ∃ other ∈ i, other.Promises o goal))
    (hp : ∀ outer goal, im.starts = some outer → im.Promises o goal →
      Achieved ev' outer goal ∨ l.Promises o goal)
    (hr : ∀ other ∈ r, ∀ v sr ds, .replacing v sr ds ∈ ev' →
        .replacing v sr ds ∈ ev ∨ other.starts ≠ some v) :
    Coherent o rc fm ev' (i ++ [l] ++ r) none := by
  rw [append_assoc]
  have howner : im.ownerIn fm = im.starts := ownerIn_of_start hst
  have hlastOwner : l.ownerIn fm = im.starts :=
    (ownerIn_of_closes hl.1).trans hpa
  have hrest : ∀ {other}, other ∈ r → other ∈ i ++ l :: r :=
    fun hm => mem_append_right _ (mem_cons_of_mem _ hm)
  have hlastMem : l ∈ i ++ l :: r := mem_append_right _ mem_cons_self
  refine h.advance hgr ?_ ?_ ?_ ?_ ?_ ?_
  · intro v goal hv
    rcases how v goal hv with hb | ⟨rfl, other, hm, hg⟩
    · exact .inl hb
    · refine .inr (.inr ⟨other, mem_append_left _ hm, ?_, hg⟩)
      obtain ⟨hc, hs, -⟩ := hi other hm
      exact (ownerIn_of_start hc).trans hs
  · intro other hm outer goal ho hg
    rcases mem_cons.mp hm with rfl | hm
    · rcases hp outer goal (howner.symm.trans ho) hg with ha | hpr
      · exact .inl ha
      · exact .inr (.inr ⟨l, hlastMem, hlastOwner.trans (howner.symm.trans ho), hpr⟩)
    · exact .inr (.inr ⟨other, hrest hm, ho, hg⟩)
  · intro other hm ir outer hc _ _
    rcases mem_cons.mp hm with rfl | hm
    · cases hst.symm.trans hc
    · exact .inr ⟨other, hrest hm, hc⟩
  · obtain ⟨it, hsc⟩ := h.stacked
    have htail := hsc.tail
    rw [show owner starts closes (parentIn fm) im = parentIn fm frame from
      howner.trans hpa.symm] at htail
    exact ⟨some frame, htail.push (fun outer hot => h.earlier frame outer hot) hl.1
      fun other hm => ⟨(hi other hm).1, (hi other hm).2.1⟩⟩
  · intro other hm v hv
    rcases mem_append.mp hm with hm | hm
    · obtain ⟨hc, hs, -⟩ := hi other hm
      rcases hv with hv | hv
      · rw [← some.inj (hs.symm.trans hv)]
        exact hf
      · cases hc.symm.trans hv
    · rcases mem_cons.mp hm with rfl | hm
      · rcases hv with hv | hv
        · cases hl.2.1.symm.trans hv
        · rw [← some.inj (hl.1.symm.trans hv)]
          exact hf
      · exact h.known other (mem_cons_of_mem _ hm) v hv
  · intro other hm
    rcases mem_append.mp hm with hm | hm
    · exact (hi other hm).2.2
    · rcases mem_cons.mp hm with rfl | hm
      · exact hl.2.2
      · exact h.fits_of_grown hgr.sub (mem_cons_of_mem _ hm) (hr other hm)
/-- **Where a frame that has not failed is about to be closed**, everything owed in it and below it is
done, and nothing in it or below it has failed. -/
theorem settled (h : Coherent o rc fm ev (im :: r) none) (hc : im.closes = some frame)
    (hf : ¬ failedIn fm frame) {i : ℕ} (hb : Below (fun outer i => .opened i (some outer) ∈ ev) frame i) :
    (∀ goal, Owes o ev i goal → Achieved ev i goal) ∧ ¬ FailedIn ev i := by
  have hparents : Below (fun outer i => parentIn fm i = some outer) frame i :=
    hb.mono fun outer i hop => ((h.opened i (some outer)).mp hop).2
  have hh : ∀ i outer, parentIn fm i = some outer → failedIn fm i →
      failedIn fm outer ∨ ∃ other ∈ im :: r, other.closes = some i := by
    intro i outer hot hi
    rcases h.handed i outer hot hi with hh | hon | hl
    · exact .inl hh
    · exact .inr hon
    · cases hl
  obtain ⟨it, hs⟩ := h.stacked
  obtain ⟨hi, hr⟩ := hs.settled_below h.earlier hh hc hf hparents
  refine ⟨?_, fun hfl => hi (h.marks i hfl)⟩
  intro goal how
  rcases h.owed i goal how with ha | hmr | ⟨other, hm, ho, -⟩
  · exact ha
  · exact absurd hmr hi
  · rcases mem_cons.mp hm with rfl | hm
    · -- the item itself belongs to the frame's parent, and that is earlier
      rw [ownerIn_of_closes hc] at ho
      have hlt := h.earlier frame i ho
      have hle := hparents.le fun outer i => h.earlier i outer
      omega
    · exact absurd ho (hr other hm)
end Coherent
end AsterForge.Webdav
