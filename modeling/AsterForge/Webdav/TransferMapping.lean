import AsterForge.Webdav.Descendant
import AsterForge.Webdav.RecursionSafety

/-!
# Where a transfer puts what it transfers

A COPY or MOVE of `S` to `D` builds destinations in three places: from a source child alone, from two
children of one name, and from the destination's own child where a file replaces a collection.  The third
takes the collection's path, slash and all, through the delayed replacement into the command that copies or
moves the file.

* `MapsDestination` — the command for `S/r` has `D/r` as its destination, in the form of a file or of a
  collection.
* `Work.Placed` — what an item of work promises about its paths; `MappedEvents` — the same of a record.
* **`transfer_destinations_mapped`** — a command is mapped unless its visit replaces a collection below the
  source, and it replaces none where no source file meets a destination collection of its name.
* **`transfer_destinations_mapped_counterexample`** — a file that replaces a collection is copied to the
  collection's path.
-/

namespace AsterForge.Webdav

open AsterForge.Core Library MutationContext Script MutationRun List Except

variable {σ κ : Type}

/-! ## Destinations -/

def DavMutationCommand.TransfersFile (command : DavMutationCommand) : Prop :=
  command.step = .copyFile ∨ command.step = .moveFile

/-- The command for a descendant of the source is for the same descendant of the destination: without a
slash where a file is transferred, with one where a collection is prepared. -/
def MapsDestination (source destination : DavPath) (command : DavMutationCommand) : Prop :=
  ∀ names isCollection, names ≠ [] → source.joinDescendant names isCollection = .ok command.source →
    (command.TransfersFile → ∃ path, command.destination = some path ∧
      destination.joinDescendant names false = .ok path) ∧
    (command.step = .prepareCollection → ∃ path, command.destination = some path ∧
      destination.joinDescendant names true = .ok path)

def ReplacesBelow (source : DavPath) (before : List MutationEvent) (frame : ℕ)
    (command : DavMutationCommand) : Prop :=
  command.TransfersFile ∧ command.source ≠ source ∧ ∃ path other, .replacing frame path other ∈ before

/-- A directory of the source lists a file, and the directory it is transferred to a collection of the same
name. -/
def FileMeetsCollection (events : List MutationEvent) : Prop :=
  ∃ visit path path' children children', .listed visit .transferSource path children ∈ events ∧
    .listed visit .transferDestination path' children' ∈ events ∧
    ∃ child ∈ children, ∃ child' ∈ children', child.isCollection = false ∧ child'.isCollection = true ∧
      child.name = child'.name

lemma FileMeetsCollection.mono {events e' : List MutationEvent} (hs : events ⊆ e')
    (h : FileMeetsCollection events) : FileMeetsCollection e' := by
  obtain ⟨v, path, path', c, c', hl, hl', hm⟩ := h
  exact ⟨v, path, path', c, c', hs hl, hs hl', hm⟩

section

variable (source destination : DavPath)

structure MappedCommand (before : List MutationEvent) (frame : ℕ) (command : DavMutationCommand) : Prop where
  mapped_iff : MapsDestination source destination command ↔ ¬ ReplacesBelow source before frame command
  meets : ReplacesBelow source before frame command → FileMeetsCollection before

/-- Every command of a record was as it should be when it was issued. -/
def MappedEvents (events : List MutationEvent) : Prop :=
  ∀ before frame command succeeded after, events = before ++ .answered frame command succeeded :: after →
    MappedCommand source destination before frame command

/-- What an item of work promises about its paths. -/
def Work.Placed (events : List MutationEvent) : Work → Prop
  | .transferDirectory path path' _ _ =>
    ∃ names, source.joinDescendant names true = .ok path ∧ destination.joinDescendant names true = .ok path'
  | .transferFile path path' _ _ =>
    ∃ names, source.joinDescendant names false = .ok path ∧ destination.joinDescendant names false = .ok path'
  | .replaceWithFile path path' _ _ =>
    ∃ names, source.joinDescendant names false = .ok path ∧
      destination.joinDescendant names true = .ok path' ∧ (names ≠ [] → FileMeetsCollection events)
  | .finalizeFileReplacement path path' _ frame =>
    (∃ names, source.joinDescendant names false = .ok path ∧
      destination.joinDescendant names true = .ok path' ∧ (names ≠ [] → FileMeetsCollection events)) ∧
    .replacing frame path path' ∈ events
  | .deleteNode _ _ _ _ _ | .finalizeTransfer _ _ | .finalizeDelete _ _ _ => True

end

section

variable {sr d p p' : DavPath} {ev b : List MutationEvent} {fr : ℕ}
  {nm : List (List UInt8)} {c : DavMutationCommand}

lemma Work.Placed.mono {e' : List MutationEvent} {item : Work} (hs : ev ⊆ e')
    (h : item.Placed sr d ev) : item.Placed sr d e' := by
  cases item with
  | transferDirectory p p' depth parent => exact h
  | transferFile p p' depth parent => exact h
  | replaceWithFile p p' depth parent =>
    obtain ⟨nm, hp, hp', hm⟩ := h
    exact ⟨nm, hp, hp', fun hne => (hm hne).mono hs⟩
  | finalizeFileReplacement p p' depth fr =>
    obtain ⟨⟨nm, hp, hp', hm⟩, hr⟩ := h
    exact ⟨⟨nm, hp, hp', fun hne => (hm hne).mono hs⟩, hs hr⟩
  | deleteNode p ic role depth parent => trivial
  | finalizeTransfer p fr => trivial
  | finalizeDelete p role fr => trivial

lemma mappedEvents_nil : MappedEvents sr d [] := by
  intro b fr c s a hs
  simp at hs

lemma MappedEvents.snoc {e : MutationEvent} (h : MappedEvents sr d ev)
    (he : ∀ fr c s, e = .answered fr c s → MappedCommand sr d ev fr c) : MappedEvents sr d (ev ++ [e]) := by
  intro b fr c s a hs
  rcases eq_nil_or_concat a with rfl | ⟨r, l, rfl⟩
  · obtain ⟨rfl, hl⟩ := append_inj' hs rfl
    exact he fr c s (cons.inj hl).1
  · have hsplit' : ev ++ [e] = (b ++ .answered fr c s :: r) ++ [l] := by
      simpa using hs
    exact h b fr c s r (append_inj' hsplit' rfl).1

lemma mappedCommand_other (hf : ¬ c.TransfersFile) (hp : c.step ≠ .prepareCollection) :
    MappedCommand sr d b fr c where
  mapped_iff := by
    refine ⟨fun _ hr => hf hr.1, fun _ nm ic _ _ => ?_⟩
    exact ⟨fun ht => absurd ht hf, fun hs => absurd hs hp⟩
  meets := fun hr => absurd hr.1 hf

lemma mapsDestination_of_joined {ic : Bool} (hd : c.destination = some p')
    (hsource : sr.joinDescendant nm ic = .ok c.source) (hjoined : d.joinDescendant nm ic = .ok p')
    (hf : c.TransfersFile → ic = false) (hp : c.step = .prepareCollection → ic = true) :
    MapsDestination sr d c := by
  intro n' ic' hne hsr'
  obtain ⟨hn, hsl⟩ := joinDescendant_inj hsource hsr'
  subst hn
  refine ⟨fun ht => ⟨p', hd, ?_⟩, fun hs => ⟨p', hd, ?_⟩⟩
  · rw [← hf ht]
    exact hjoined
  · rw [← hp hs]
    exact hjoined

lemma mappedCommand_prepare {o : DavMutationOperation} {role : DavMutationTargetRole}
    (hsource : sr.joinDescendant nm true = .ok p) (hjoined : d.joinDescendant nm true = .ok p') :
    MappedCommand sr d b fr ⟨o, .prepareCollection, role, p, some p'⟩ := by
  have hfile : ¬ DavMutationCommand.TransfersFile ⟨o, .prepareCollection, role, p, some p'⟩ := by
    rintro (hs | hs) <;> cases hs
  have hmaps : MapsDestination sr d ⟨o, .prepareCollection, role, p, some p'⟩ :=
    mapsDestination_of_joined rfl hsource hjoined (fun ht => absurd ht hfile) fun _ => rfl
  exact ⟨⟨fun _ hr => hfile hr.1, fun _ => hmaps⟩, fun hr => absurd hr.1 hfile⟩

variable {cn : MutationContext σ κ}

lemma transfersFile_transferCommand : (cn.transferCommand p p').TransfersFile := by
  by_cases hmove : cn.operation = .move
  · exact .inr (if_pos hmove)
  · exact .inl (if_neg hmove)

lemma transferCommand_ne_prepare : (cn.transferCommand p p').step ≠ .prepareCollection := by
  intro hs
  have hf : (cn.transferCommand p p').TransfersFile := transfersFile_transferCommand
  rcases hf with hf | hf
  · cases hf.symm.trans hs
  · cases hf.symm.trans hs

lemma mappedCommand_transfer (hsource : sr.joinDescendant nm false = .ok p)
    (hjoined : d.joinDescendant nm false = .ok p') (hf : ∀ p o, .replacing fr p o ∉ b) :
    MappedCommand sr d b fr (cn.transferCommand p p') := by
  have hnot : ¬ ReplacesBelow sr b fr (cn.transferCommand p p') := by
    rintro ⟨-, -, o, o', hrp⟩
    exact hf o o' hrp
  have hmaps : MapsDestination sr d (cn.transferCommand p p') :=
    mapsDestination_of_joined rfl hsource hjoined (fun _ => rfl)
      fun hs => absurd hs transferCommand_ne_prepare
  exact ⟨⟨fun _ => hnot, fun _ => hmaps⟩, fun hr => absurd hr hnot⟩

/-- A file that replaces a collection is transferred to the collection's path: that is wrong, but for the
source itself. -/
lemma mappedCommand_replacement (hsource : sr.joinDescendant nm false = .ok p)
    (hjoined : d.joinDescendant nm true = .ok p')
    (hmt : nm ≠ [] → FileMeetsCollection b) (hrp : .replacing fr p p' ∈ b) :
    MappedCommand sr d b fr (cn.transferCommand p p') := by
  by_cases hnames : nm = []
  · subst hnames
    cases hsource
    have hm : MapsDestination sr d (cn.transferCommand sr p') := by
      intro nm ic hne hs
      exact absurd (names_of_joinDescendant_self hs) hne
    have hn : ¬ ReplacesBelow sr b fr (cn.transferCommand sr p') :=
      fun hr => hr.2.1 rfl
    exact ⟨⟨fun _ => hn, fun _ => hm⟩, fun hr => absurd hr hn⟩
  · have hbelow : p ≠ sr := by
      rintro rfl
      exact hnames (names_of_joinDescendant_self hsource)
    have hr : ReplacesBelow sr b fr (cn.transferCommand p p') :=
      ⟨transfersFile_transferCommand, hbelow, p, p', hrp⟩
    refine ⟨⟨fun hm => ?_, fun hn => absurd hr hn⟩, fun _ => hmt hnames⟩
    -- the path would end with a slash and without one
    obtain ⟨hfl, -⟩ := hm nm false hnames hsource
    obtain ⟨f, hf, hj'⟩ := hfl transfersFile_transferCommand
    obtain rfl : p' = f := Option.some.inj hf
    cases (joinDescendant_inj hjoined hj').2 hnames

end

/-! ## Merging -/

section

variable {source destination pt pt' : DavPath} {e : List MutationEvent} {dp fm : ℕ} {n : List (List UInt8)}

def Child.IsBelow (path : DavPath) (child : Child) : Prop :=
  path.joinChild child.name child.isCollection = .ok child.path

/-- Where an item of a merge comes from: a source child, two children of one name, or a destination child. -/
inductive MergedFrom (path' : DavPath) (depth frame : ℕ) (sources destinations : List Child) (item : Work) :
    Prop
  | source {child : Child} (hchild : child ∈ sources)
      (hpush : pushSourceChild path' depth frame child = .ok item)
  | matching {child child' : Child} (hchild : child ∈ sources) (hchild' : child' ∈ destinations)
      (hname : child.name = child'.name)
      (hpush : pushMatchingChildren path' depth frame child child' = .ok item)
  | destination {child' : Child} (hchild' : child' ∈ destinations)
      (hitem : item = destinationDeleteWork depth frame child')

variable {i : Work} {sc ds : List Child} {ch : Child}

lemma MergedFrom.mono {s' d' : List Child} (h : MergedFrom pt' dp fm sc ds i) (hs : sc ⊆ s') (hd : ds ⊆ d') :
    MergedFrom pt' dp fm s' d' i := by
  cases h with
  | source hc hp => exact .source (hs hc) hp
  | matching hc hc' hn hp =>
    exact .matching (hs hc) (hd hc') hn hp
  | destination hc' hi => exact .destination (hd hc') hi

lemma mergedFrom_of_mem : ∀ {f : ℕ} {sources destinations : List Child} {next : List Work},
    mergeChildren pt' dp fm f sources destinations = .ok next →
      ∀ i ∈ next, MergedFrom pt' dp fm sources destinations i
  | 0, sources, destinations, next, h, i, hm => by
    cases sources <;> cases destinations <;> cases h <;> cases hm
  | f + 1, [], [], next, h, i, hm => by
    cases h
    cases hm
  | f + 1, [], child' :: destinations, next, h, i, hm => by
    simp only [mergeChildren, bind_eq_ok, except_pure, ok.injEq] at h
    obtain ⟨r, hr, rfl⟩ := h
    rcases mem_cons.mp hm with rfl | hm
    · exact .destination mem_cons_self rfl
    · exact (mergedFrom_of_mem hr i hm).mono (List.Subset.refl _) (subset_cons_self ..)
  | f + 1, ch :: sources, [], next, h, i, hm => by
    simp only [mergeChildren, bind_eq_ok, except_pure, ok.injEq] at h
    obtain ⟨first, hf, r, hr, rfl⟩ := h
    rcases mem_cons.mp hm with rfl | hm
    · exact .source mem_cons_self hf
    · exact (mergedFrom_of_mem hr i hm).mono (subset_cons_self ..) (List.Subset.refl _)
  | f + 1, ch :: sources, child' :: destinations, next, h, i, hm => by
    unfold mergeChildren at h
    split at h
    · simp only [bind_eq_ok, except_pure, ok.injEq] at h
      obtain ⟨first, hf, r, hr, rfl⟩ := h
      rcases mem_cons.mp hm with rfl | hm
      · exact .source mem_cons_self hf
      · exact (mergedFrom_of_mem hr i hm).mono (subset_cons_self ..) (List.Subset.refl _)
    · split at h
      · rename_i hname
        simp only [bind_eq_ok, except_pure, ok.injEq] at h
        obtain ⟨first, hf, r, hr, rfl⟩ := h
        rcases mem_cons.mp hm with rfl | hm
        · exact .matching mem_cons_self mem_cons_self hname hf
        · exact (mergedFrom_of_mem hr i hm).mono (subset_cons_self ..) (subset_cons_self ..)
      · simp only [bind_eq_ok, except_pure, ok.injEq] at h
        obtain ⟨r, hr, rfl⟩ := h
        rcases mem_cons.mp hm with rfl | hm
        · exact .destination mem_cons_self rfl
        · exact (mergedFrom_of_mem hr i hm).mono (List.Subset.refl _) (subset_cons_self ..)

section

variable (hsr : source.joinDescendant n true = .ok pt) (hj : destination.joinDescendant n true = .ok pt')
include hsr hj

lemma placed_pushSourceChild (hc : ch.IsBelow pt)
    (h : pushSourceChild pt' dp fm ch = .ok i) : i.Placed source destination e := by
  simp only [pushSourceChild, bind_eq_ok] at h
  obtain ⟨p, hp, h⟩ := h
  have hnames := joinDescendant_snoc hsr hc
  have hnames' := joinDescendant_snoc hj hp
  split at h
  · rename_i hcoll
    cases h
    rw [hcoll] at hnames hnames'
    exact ⟨n ++ [ch.name], hnames, hnames'⟩
  · rename_i hfile
    cases h
    rw [Bool.not_eq_true] at hfile
    rw [hfile] at hnames hnames'
    exact ⟨n ++ [ch.name], hnames, hnames'⟩

lemma placed_pushMatchingChildren {c' : Child} (hc : ch.IsBelow pt) (hc' : c'.IsBelow pt') (hn : ch.name = c'.name)
    (hm : ch.isCollection = false → c'.isCollection = true → FileMeetsCollection e)
    (h : pushMatchingChildren pt' dp fm ch c' = .ok i) : i.Placed source destination e := by
  simp only [pushMatchingChildren, bind_eq_ok] at h
  obtain ⟨p, hp, h⟩ := h
  have hnames := joinDescendant_snoc hsr hc
  have hnames' := joinDescendant_snoc hj hp
  split at h
  · rename_i hcoll
    cases h
    rw [hcoll] at hnames hnames'
    exact ⟨n ++ [ch.name], hnames, hnames'⟩
  · rename_i hfile
    rw [Bool.not_eq_true] at hfile
    rw [hfile] at hnames hnames'
    split at h
    · rename_i hcoll
      cases h
      have hrepl := joinDescendant_snoc hj hc'
      rw [← hn, hcoll] at hrepl
      exact ⟨n ++ [ch.name], hnames, hrepl, fun _ => hm hfile hcoll⟩
    · cases h
      exact ⟨n ++ [ch.name], hnames, hnames'⟩

/-- **A merge** places its items. -/
lemma placed_mergeTransferChildren {v : ℕ} {next : List Work} (hs : ∀ ch ∈ sc, ch.IsBelow pt)
    (hd : ∀ ch ∈ ds, ch.IsBelow pt') (hl : .listed v .transferSource pt sc ∈ e)
    (hl' : .listed v .transferDestination pt' ds ∈ e) (h : mergeTransferChildren pt' dp fm sc ds = .ok next) :
    ∀ i ∈ next, i.Placed source destination e := by
  have hm : ∀ {ch}, ch ∈ sc.insertionSort Child.Le → ch ∈ sc :=
    fun hm => (perm_insertionSort Child.Le sc).mem_iff.mp hm
  have hmem' : ∀ {ch}, ch ∈ ds.insertionSort Child.Le → ch ∈ ds :=
    fun hm => (perm_insertionSort Child.Le ds).mem_iff.mp hm
  intro i hi
  cases mergedFrom_of_mem h i hi with
  | source hc hp =>
    exact placed_pushSourceChild hsr hj (hs _ (hm hc)) hp
  | matching hc hc' hn hp =>
    refine placed_pushMatchingChildren hsr hj (hs _ (hm hc)) (hd _ (hmem' hc')) hn ?_ hp
    intro hf hcl
    exact ⟨v, pt, pt', sc, ds, hl, hl', _, hm hc, _, hmem' hc', hf, hcl, hn⟩
  | destination hc' heq =>
    rw [heq]
    trivial

end

end

/-! ## Runs -/

structure Following (source destination : DavPath) (run : MutationRun σ) : Prop where
  mapped : MappedEvents source destination run.events
  placed : ∀ item ∈ run.work, item.Placed source destination run.events

namespace Following

variable {so dt : DavPath} {ct : MutationContext σ κ} {run : MutationRun σ}

section

variable (h : Following so dt run)
include h

lemma withWorld (world : σ) : Following so dt { run with world } := ⟨h.mapped, h.placed⟩

lemma record (e : MutationEvent) (he : ∀ frame command s, e = .answered frame command s →
      MappedCommand so dt run.events frame command) :
    Following so dt (run.record e) :=
  ⟨h.mapped.snoc he, fun item hm => (h.placed item hm).mono (subset_append_left ..)⟩

lemma stopWith (r : DavMutationStop) : Following so dt (run.stopWith r) := by
  have hrec := h.record (.stopped r) fun _ _ _ heq => by cases heq
  exact ⟨hrec.mapped, hrec.placed⟩

lemma openFrame (parent : Option ℕ) : Following so dt (run.openFrame parent).2 := by
  have hrec := h.record (.opened run.frames.length parent) fun _ _ _ heq => by cases heq
  exact ⟨hrec.mapped, hrec.placed⟩

lemma visiting {depth : ℕ} {visit : MutationRun σ → MutationRun σ}
    (hv : ∀ budget, Following so dt { run with budget } → Following so dt (visit { run with budget })) :
    Following so dt (run.visiting depth visit) := by
  unfold MutationRun.visiting
  split
  · exact h.stopWith _
  · exact hv _ ⟨h.mapped, h.placed⟩

lemma queueWork {next : List Work} (hn : ∀ item ∈ next, item.Placed so dt run.events) :
    Following so dt (run.queueWork next) := by
  unfold MutationRun.queueWork
  split
  · exact h.stopWith _
  · refine ⟨h.mapped, fun item hm => ?_⟩
    rcases mem_append.mp hm with hnw | hl
    · exact hn item hnw
    · exact h.placed item hl

lemma propagate (frame : ℕ) : Following so dt (run.propagateFrameFailure frame) := by
  rw [propagateFrameFailure_eq]
  exact ⟨h.mapped, h.placed⟩

lemma issue {command : DavMutationCommand} {frame : ℕ} (hc : MappedCommand so dt run.events frame command) :
    Following so dt (run.issue ct.port command frame).2 := by
  have hansd : ∀ succeeded, Following so dt (run.record (.answered frame command succeeded)) := by
    intro succeeded
    refine h.record _ ?_
    rintro _ _ _ ⟨⟩
    exact hc
  have hiss := issued run ct.port command frame
  generalize run.issue ct.port command frame = result at hiss ⊢
  obtain ⟨applied, run'⟩ := result
  cases hiss with
  | succeeded world budget => exact ⟨(hansd true).mapped, (hansd true).placed⟩
  | failed world budget failures => exact ⟨(hansd false).mapped, (hansd false).placed⟩
  | stopped world reason =>
    have hmark : Following so dt
        { (run.record (.answered frame command false)).markFailed frame with world } :=
      ⟨(hansd false).mapped, (hansd false).placed⟩
    exact hmark.stopWith reason

lemma unread (e : DavDirectoryReadError) (path : DavPath)
    (frame : ℕ) : Following so dt (unread run e path frame) := by
  refine propagate ?_ frame
  have hrec := h.record (.unreadable frame path) fun _ _ _ heq => by cases heq
  have hmark : Following so dt ((run.record (.unreadable frame path)).markFailed frame) :=
    ⟨hrec.mapped, hrec.placed⟩
  have hread := readFailed run e path frame
  generalize run.recordDirectoryReadFailure e path frame = run' at hread ⊢
  cases hread with
  | stopped r => exact h.stopWith r
  | uncounted r => exact hmark.stopWith r
  | failed hb e => exact ⟨hmark.mapped, hmark.placed⟩

end

end Following

section

variable {src dn ph ph' : DavPath} {co : MutationContext σ κ} {run : MutationRun σ}
  {dh f : ℕ} {pr : Option ℕ} {r : DavMutationTargetRole}

lemma mappedCommand_delete {before : List MutationEvent} {s : DavMutationStepKind}
    (hs : s = .deleteFile ∨ s = .deleteCollection) :
    MappedCommand src dn before f (co.deleteCommand s r ph) := by
  refine mappedCommand_other ?_ ?_
  · rintro (ht | ht)
    · rcases hs with hs | hs <;> cases hs.symm.trans ht
    · rcases hs with hs | hs <;> cases hs.symm.trans ht
  · intro hp
    rcases hs with hs | hs <;> cases hs.symm.trans hp

section

variable (h : Following src dn run)
include h

lemma following_frameOrNew (hk : ∀ f ph o, .replacing f ph o ∈ run.events → f < run.frames.length)
    (hf : ∀ f ∈ pr, ∀ ph o, .replacing f ph o ∉ run.events) : Following src dn (run.frameOrNew pr).2 ∧
      ∀ ph o, .replacing (run.frameOrNew pr).1 ph o ∉ (run.frameOrNew pr).2.events := by
  cases pr with
  | some f => exact ⟨h, hf f rfl⟩
  | none =>
    refine ⟨h.openFrame none, fun ph o hr => ?_⟩
    have hbef : .replacing run.frames.length ph o ∈ run.events := by
      simpa [frameOrNew, openFrame, record] using hr
    exact absurd (hk _ _ _ hbef) (Nat.lt_irrefl _)

lemma following_transferFile (hi : (Work.transferFile ph ph' dh pr).Placed src dn run.events)
    (hk : ∀ f ph other, .replacing f ph other ∈ run.events → f < run.frames.length)
    (hf : ∀ f ∈ pr, ∀ ph other, .replacing f ph other ∉ run.events) :
    Following src dn (co.transferFile run ph ph' dh pr) := by
  obtain ⟨names, hsource, hjoined⟩ := hi
  refine h.visiting fun budget hr => ?_
  obtain ⟨hfr, hn⟩ := following_frameOrNew hr hk hf
  exact hfr.issue (mappedCommand_transfer hsource hjoined hn)

lemma following_replaceWithFile (hi : (Work.replaceWithFile ph ph' dh pr).Placed src dn run.events) :
    Following src dn (replaceWithFile run ph ph' dh pr) := by
  obtain ⟨names, hsource, hjoined, hmt⟩ := hi
  have hrec := (h.openFrame pr).record (.replacing run.frames.length ph ph') fun _ _ _ heq => by cases heq
  refine hrec.queueWork fun item hm => ?_
  rcases mem_cons.mp hm with rfl | hm
  · trivial
  · rw [mem_singleton.mp hm]
    refine ⟨⟨names, hsource, hjoined, fun hne => (hmt hne).mono ?_⟩, ?_⟩
    · simp [record, openFrame]
    · simp [record]

lemma following_finalizeFileReplacement
    (hi : (Work.finalizeFileReplacement ph ph' dh f).Placed src dn run.events) :
    Following src dn (co.finalizeFileReplacement run ph ph' dh f) := by
  obtain ⟨⟨names, hsource, hjoined, hm⟩, hr⟩ := hi
  unfold finalizeFileReplacement
  split
  · exact h.propagate f
  · refine h.visiting fun budget hrn => Following.propagate ?_ f
    exact hrn.issue (mappedCommand_replacement hsource hjoined hm hr)

lemma following_deleteFile : Following src dn (co.deleteFile run ph r dh pr) := by
  refine h.visiting fun budget hr => ?_
  have hframe : Following src dn (({ run with budget } : MutationRun σ).frameOrNew pr).2 := by
    cases pr with
    | some f => exact hr
    | none => exact hr.openFrame none
  exact hframe.issue (mappedCommand_delete (.inl rfl))

lemma following_finalizeTransfer : Following src dn (co.finalizeTransfer run ph f) := by
  unfold finalizeTransfer
  split
  · exact h.propagate f
  · exact (h.issue (mappedCommand_delete (.inr rfl))).propagate f

lemma following_finalizeDelete : Following src dn (co.finalizeDelete run ph r f) := by
  unfold finalizeDelete
  split
  · exact h.propagate f
  · exact (h.issue (mappedCommand_delete (.inr rfl))).propagate f

lemma following_mergeDirectories {names : List (List UInt8)} {sources destinations : List Child} (hsource : src.joinDescendant names true = .ok ph)
    (hjoined : dn.joinDescendant names true = .ok ph') (hs : ∀ child ∈ sources, child.IsBelow ph)
    (hd : ∀ child ∈ destinations, child.IsBelow ph') (hl : .listed f .transferSource ph sources ∈ run.events)
    (hl' : .listed f .transferDestination ph' destinations ∈ run.events) :
    Following src dn (mergeDirectories run ph ph' dh f sources destinations) := by
  unfold mergeDirectories
  split
  · exact h.stopWith _
  · split
    · exact (h.stopWith _).propagate f
    · rename_i next hnext
      refine h.queueWork fun item hm => ?_
      rcases mem_append.mp hm with hm | hm
      · exact placed_mergeTransferChildren hsource hjoined hs hd hl hl' hnext item hm
      · rw [mem_singleton.mp hm]
        trivial

end

variable [DecidableEq κ]

lemma isBelow_of_readPages : ∀ {f : ℕ} {s : DavDirectoryPageState κ} {c m : List Child}
    {w w' : σ}, (∀ child ∈ c, child.IsBelow ph) → co.readPages ph f s c w = (.ok m, w') →
        ∀ child ∈ m, child.IsBelow ph
  | 0, _, _, _, _, _, _, hread => by cases hread
  | f + 1, s, c, m, w, w', hchil, hread => by
    unfold readPages at hread
    split at hread
    · cases hread
    · cases hread
      exact hchil
    · split at hread
      · split at hread
        · cases hread
        · rename_i page _ _ _ _ added hadded
          refine isBelow_of_readPages ?_ hread
          intro child hm
          rcases mem_append.mp hm with hm | hm
          · exact hchil child hm
          · obtain ⟨e, -, he⟩ := ((mem_of_mapM_eq_ok hadded).1 child).mp hm
            simp only [childOf, bind_eq_ok, except_pure, ok.injEq] at he
            obtain ⟨cp, hp, rfl⟩ := he
            exact hp
      · cases hread

lemma isBelow_of_readChildren {c : List Child} {w w' : σ} (hr : co.readChildren w ph = (.ok c, w')) :
    ∀ child ∈ c, child.IsBelow ph :=
  isBelow_of_readPages (by simp) hr

section

variable (h : Following src dn run)
include h

lemma following_deleteCollection : Following src dn (co.deleteCollection run ph r dh pr) := by
  refine h.visiting fun budget hr => ?_
  have hopen := hr.openFrame pr
  dsimp only
  split
  · rename_i error world _
    exact (hopen.withWorld world).unread error ph _
  · rename_i children world _
    have hlisted := hopen.record (.listed run.frames.length (.deletion r) ph children)
      fun _ _ _ heq => by cases heq
    split
    · exact (hlisted.withWorld world).stopWith _
    · refine (hlisted.withWorld world).queueWork fun item hm => ?_
      rcases mem_append.mp hm with hm | hm
      · obtain ⟨child, -, rfl⟩ := mem_map.mp hm
        trivial
      · rw [mem_singleton.mp hm]
        trivial

lemma following_transferChildren {names : List (List UInt8)}
    (hsource : src.joinDescendant names true = .ok ph) (hjoined : dn.joinDescendant names true = .ok ph') :
    Following src dn (co.transferChildren run ph ph' dh f) := by
  unfold transferChildren
  split
  · rename_i error world _
    exact (h.withWorld world).unread error ph f
  · rename_i sources world hread
    have hlisted := h.record (.listed f .transferSource ph sources) fun _ _ _ heq => by cases heq
    dsimp only
    split
    · rename_i error world _
      exact (hlisted.withWorld world).unread error ph' f
    · rename_i destinations world' hread'
      have hlisted' := hlisted.record (.listed f .transferDestination ph' destinations)
        fun _ _ _ heq => by cases heq
      refine following_mergeDirectories (hlisted'.withWorld world') hsource hjoined
        (isBelow_of_readChildren hread) (isBelow_of_readChildren hread') ?_ ?_
      · simp [record]
      · simp [record]

lemma following_transferDirectory (hi : (Work.transferDirectory ph ph' dh pr).Placed src dn run.events) :
    Following src dn (co.transferDirectory run ph ph' dh pr) := by
  obtain ⟨names, hsource, hjoined⟩ := hi
  refine h.visiting fun budget hr => ?_
  have hopen := hr.openFrame pr
  dsimp only
  have hiss : Following src dn (issue (({ run with budget } : MutationRun σ).openFrame pr).2 co.port
      ⟨co.operation, .prepareCollection, .destination, ph, some ph'⟩ run.frames.length).2 :=
    hopen.issue (mappedCommand_prepare hsource hjoined)
  split
  · exact hiss.propagate _
  · exact following_transferChildren hiss hsource hjoined

/-- **One item of work.** -/
theorem following_perform {item : Work} (hi : item.Placed src dn run.events)
    (hc : Coherent co.operation co.recurseCollections run.frames run.events
      (item :: run.work) none) : Following src dn (co.perform run item) := by
  have hfits := hc.fits item mem_cons_self
  cases item with
  | transferDirectory ph ph' dh pr => exact following_transferDirectory h hi
  | transferFile ph ph' dh pr =>
    exact following_transferFile h hi hc.replaced hfits.2
  | replaceWithFile ph ph' dh pr => exact following_replaceWithFile h hi
  | deleteNode ph ic r dh pr =>
    cases ic with
    | false => exact following_deleteFile h
    | true => exact following_deleteCollection h
  | finalizeTransfer ph f => exact following_finalizeTransfer h
  | finalizeFileReplacement ph ph' dh f => exact following_finalizeFileReplacement h hi
  | finalizeDelete ph r f => exact following_finalizeDelete h

end

lemma Following.step {run next : MutationRun σ} (h : Following src dn run)
    (hs : Sound co run) (hsp : co.step run = some next) : Following src dn next := by
  obtain ⟨hst, world, rfl | ⟨item, work, hw, rfl⟩⟩ := step_cases hsp
  · exact (h.withWorld world).stopWith _
  · have hplac := h.placed
    have hcoh := hs.coherent hst
    rw [hw] at hplac hcoh
    have hrun : Following src dn { run with world, work, budget := run.budget.completeWork } :=
      ⟨h.mapped, fun other hm => hplac other (mem_cons_of_mem _ hm)⟩
    exact following_perform hrun (hplac item mem_cons_self) hcoh

end

/-! ## Executions -/

variable {rq : DavMutationRequest} {root : Work}

lemma placed_rootWork {de : DavPath} {events : List MutationEvent} (hd : rq.destination = some de)
    (h : rootWork rq = some root) : root.Placed rq.source de events := by
  unfold rootWork at h
  rw [hd] at h
  split at h
  · rename_i hsome
    cases hsome
    split at h
    · cases h
      exact ⟨[], rfl, rfl⟩
    · cases h
  · cases h
    trivial
  · rename_i hsome _
    cases hsome
    cases h
    exact ⟨[], rfl, rfl, fun hne => absurd rfl hne⟩
  · rename_i hsome _
    cases hsome
    cases h
    exact ⟨[], rfl, rfl, fun hne => absurd rfl hne⟩
  · rename_i hsome _
    cases hsome
    cases h
    exact ⟨[], rfl, rfl⟩
  · rename_i hsome _
    cases hsome
    cases h
    exact ⟨[], rfl, rfl⟩
  · rename_i hsome
    cases hsome
    cases h
    exact ⟨[], rfl, rfl⟩
  · cases h

lemma following_initialRun {de : DavPath} (w : σ) (b : DavTraversalBudget) (hd : rq.destination = some de)
    (hr : rootWork rq = some root) : Following rq.source de (initialRun w b root) := by
  have hplac : ∀ b : DavTraversalBudget, Following rq.source de
      (⟨w, [root], [], [], b, none, []⟩ : MutationRun σ) := by
    intro b
    refine ⟨mappedEvents_nil, fun item hm => ?_⟩
    rw [mem_singleton.mp hm]
    exact placed_rootWork hd hr
  unfold initialRun
  split
  · exact (hplac _).stopWith _
  · exact hplac _

/-- **Where a transfer puts what it transfers.**  In every execution a command for a descendant of the source
has the same descendant of the destination, in its own form, if and only if it is no file's transfer in a
visit that replaces a collection below the source; and in an execution in which no source file meets a
destination collection of its name, every command has. -/
theorem transfer_destinations_mapped [DecidableEq κ] (request : DavMutationRequest)
    (enumerator : DavDirectoryEnumerator σ κ) (port : DavMutationPort σ) (cancellation : DavCancellation σ)
    (limits : DavMutationExecutorLimits) (world : σ) {destination : DavPath}
    (hdestination : request.destination = some destination) :
    let events := (executeRecursiveMutation request enumerator port cancellation limits world).events
    (∀ before frame command succeeded after,
      events = before ++ .answered frame command succeeded :: after →
        (MapsDestination request.source destination command ↔
          ¬ ReplacesBelow request.source before frame command))
      ∧ (¬ FileMeetsCollection events → ∀ frame command succeeded,
          .answered frame command succeeded ∈ events →
            MapsDestination request.source destination command) := by
  intro events
  have hmapped : MappedEvents request.source destination events := by
    have hexec := executed request enumerator port cancellation limits world
    show MappedEvents _ _ (executeRecursiveMutation _ _ _ _ _ _).events
    generalize executeRecursiveMutation request enumerator port cancellation limits world = report at hexec
    cases hexec with
    | refused s => exact mappedEvents_nil
    | @ran b root run hb hr hrn =>
      have hsound : Sound (requestContext request enumerator port cancellation limits)
          (initialRun world b root) := sound_initialRun world b hr rfl rfl
      rw [← hrn]
      exact (loop_keeps (I := fun run => Following request.source destination run ∧
          Sound (requestContext request enumerator port cancellation limits) run)
        (fun run next h hst => ⟨h.1.step h.2 hst, h.2.step hst⟩) _
        ⟨following_initialRun world b hdestination hr, hsound⟩).1.mapped
  refine ⟨?_, ?_⟩
  · intro before frame command succeeded after hs
    exact (hmapped before frame command succeeded after hs).mapped_iff
  · intro ha frame command succeeded hm
    obtain ⟨before, after, hs⟩ := append_of_mem hm
    have hcmd := hmapped before frame command succeeded after hs
    refine hcmd.mapped_iff.mpr fun hrp => ha ((hcmd.meets hrp).mono ?_)
    rw [hs]
    exact subset_append_left ..

/-! ### A file in the place of a collection -/

namespace Script

/-- `/s/` lists the file `f`, `/t/` the collection `f`, and that lists nothing. -/
def replacement : Script where
  listings := [[⟨[0x66], [1], false⟩], [⟨[0x66], [1], true⟩], []]
  answers := []

/-- The COPY of `/s/` to `/t/`. -/
def replacementRequest : DavMutationRequest :=
  ⟨.copy, ⟨"/s/"⟩, .collection, some ⟨"/t/"⟩, some .collection, true, true⟩

def replacementRun : MutationReport Script :=
  executeRecursiveMutation replacementRequest enumerator port cancellation limits replacement

/-- The copy of `/s/f`, to the path that the collection had. -/
def replacementCopy : DavMutationCommand := ⟨.copy, .copyFile, .destination, ⟨"/s/f"⟩, some ⟨"/t/f/"⟩⟩

/-- The COPY where `/t/` lists nothing. -/
def copyRun : MutationReport Script :=
  executeRecursiveMutation replacementRequest enumerator port cancellation limits
    { replacement with listings := [[⟨[0x66], [1], false⟩]] }

def replaced : MutationEvent → Option ℕ
  | .replacing frame _ _ => some frame
  | _ => none

end Script

/-- A file that meets nothing is copied to `/t/f`. -/
theorem transfer_destinations_mapped_copy :
    MapsDestination ⟨"/s/"⟩ ⟨"/t/"⟩ ⟨.copy, .copyFile, .destination, ⟨"/s/f"⟩, some ⟨"/t/f"⟩⟩ := by
  refine ((transfer_destinations_mapped replacementRequest enumerator port
    cancellation limits { replacement with listings := [[⟨[0x66], [1], false⟩]] }
    rfl).1 (copyRun.events.take 4) 0 _ true (copyRun.events.drop 5) (by decide)).mpr ?_
  rintro ⟨-, -, path, o, hr⟩
  have hnone : 0 ∉ (copyRun.events.take 4).filterMap replaced := by decide
  exact hnone (mem_filterMap.mpr ⟨_, hr, rfl⟩)

/-- **A file that replaces a collection** is copied to the path of the collection. -/
theorem transfer_destinations_mapped_counterexample :
    ¬ ∀ frame command succeeded, .answered frame command succeeded ∈ replacementRun.events →
      MapsDestination ⟨"/s/"⟩ ⟨"/t/"⟩ command := by
  intro hm
  obtain ⟨hf, -⟩ := hm 1 replacementCopy true (by decide) [[0x66]] false (by simp) rfl
  obtain ⟨path, hp, hjoined⟩ := hf (.inl rfl)
  obtain rfl : ⟨"/t/f/"⟩ = path := Option.some.inj hp
  exact absurd hjoined (by decide)

end AsterForge.Webdav
