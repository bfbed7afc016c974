import AsterForge.Db.MailOutbox

/-!
# The fence of a mail outbox

A claim of a row can be superseded by a later one, while its dispatcher still delivers the mail; a mark asks
only whether the row is being processed.

* `Undisputed` — no claim takes effect on a row that another dispatcher works on.
* **`Held.step`** — as long as that is so, a row that is worked on has been claimed last by who works on it.
* **`overtaken`** — once it is not, the dispatcher that has lost its row may still change it.
* **`mailOutbox_fenced`** — both, over every run; and finished rows and payloads.
-/

namespace AsterForge.Db

open Library Mail Function Option

variable {config : MailOutboxDispatchConfig} {s t : OutboxSystem} {event : OutboxEvent}

/-! ## Who changes a row -/

/-- Every mark that has changed a row is one of the dispatcher that had claimed the row last. -/
def Fenced (s : OutboxSystem) : Prop :=
  ∀ record ∈ s.log, record.claimedBy = some record.session

/-- No claim takes effect on a row that another dispatcher delivers or marks. -/
def Undisputed (config : MailOutboxDispatchConfig) (s : OutboxSystem) (event : OutboxEvent) : Prop :=
  ∀ session context now model, Claims config s event session context now model →
    ∀ other phase, other ≠ session → s.dispatchers other = some phase → workedRow phase ≠ some context.id

/-- A row that a dispatcher works on is one that it has claimed last, and no one else can claim it but as
stale. -/
def HeldBy (s : OutboxSystem) (session : ℕ) (id : ℤ) : Prop :=
  s.claimedBy id = some session ∧
    ∃ model, s.table id = some model ∧ (model.status = .processing ∨ model.status.isTerminal = true)

def Held (s : OutboxSystem) : Prop :=
  ∀ session phase id, s.dispatchers session = some phase → workedRow phase = some id → HeldBy s session id

/-- A row stays held while no one else claims it and no mark but the last one of its holder is on it. -/
lemma HeldBy.step {ss : ℕ} {id : ℤ} (h : HeldBy s ss id) (hst : OutboxStep config s event t)
    (hc : ∀ o c now m, Claims config s event o c now m → c.id ≠ id)
    (hm : ∀ o c mr now m, Marks s event o c mr now m → c.id = id → ∃ sb, mr = .sent sb) : HeldBy t ss id := by
  obtain ⟨hl, m, hr, hs⟩ := h
  cases outboxStep_change hst with
  | nothing _ tb cb _ _ =>
    rw [HeldBy, tb, cb]
    exact ⟨hl, m, hr, hs⟩
  | enqueued ie f tb cb _ _ =>
    rw [HeldBy, tb, cb, update_of_ne]
    · exact ⟨hl, m, hr, hs⟩
    · rintro rfl
      rw [f] at hr
      cases hr
  | claimed cl tb cb _ _ =>
    have hne := (hc _ _ _ _ cl).symm
    rw [HeldBy, tb, cb, update_of_ne hne, update_of_ne hne]
    exact ⟨hl, m, hr, hs⟩
  | @marked o c mr now m' mk tb cb _ _ =>
    rw [HeldBy, tb, cb]
    refine ⟨hl, ?_⟩
    by_cases hsame : c.id = id
    · obtain ⟨sb, rfl⟩ := hm _ _ _ _ _ mk hsame
      rw [hsame, update_self]
      exact ⟨_, rfl, .inr rfl⟩
    · rw [update_of_ne (Ne.symm hsame)]
      exact ⟨m, hr, hs⟩

/-- The dispatcher that takes a step. -/
def OutboxEvent.session : OutboxEvent → Option ℕ
  | .enqueued .. => none
  | .began session | .died session | .listed session .. | .claimed session .. | .delivered session _
  | .marked session .. => some session

lemma Held.other {ss : ℕ} {p : DispatchPhase} {id : ℤ} (h : Held s) (hg : Undisputed config s event)
    (hs : OutboxStep config s event t) (ho : event.session ≠ some ss)
    (hp : s.dispatchers ss = some p) (hw : workedRow p = some id) : HeldBy t ss id := by
  have hheld := h ss p id hp hw
  refine hheld.step hs ?_ ?_
  · rintro o c now m hc rfl
    refine hg o c now m hc ss p ?_ hp hw
    rintro rfl
    obtain ⟨f, st, r, rfl, -⟩ := hc
    exact ho rfl
  · rintro o c mr now m ⟨f, st, l, r, rfl, hm, -⟩ rfl
    have htheirs := h o _ c.id hm rfl
    have hboth := htheirs.1.symm.trans hheld.1
    exact absurd hboth ho

/-- **One step**: a row that a dispatcher works on stays its own, if no one else claims it. -/
theorem Held.step (h : Held s) (hg : Undisputed config s event) (hst : OutboxStep config s event t) : Held t := by
  intro ss p id hp hw
  have hothers : event.session ≠ some ss → s.dispatchers ss = some p → HeldBy t ss id :=
    fun ho hp => h.other hg hst ho hp hw
  cases hst with
  | enqueued v fr => exact hothers nofun hp
  | began i =>
    obtain ⟨-, ⟨⟩⟩ | ⟨hne, hp⟩ := goes_dispatchers hp
    · cases hw
    · exact hothers (fun hs => hne (some.inj hs)) hp
  | died o =>
    obtain ⟨-, ⟨⟩⟩ | ⟨hne, hp⟩ := Table.update_eq_iff.mp hp
    exact hothers (fun hs => hne (some.inj hs).symm) hp
  | listed | listingFailed =>
    obtain ⟨-, hn⟩ | ⟨hne, hp⟩ := goes_dispatchers hp
    · rw [afterList_idle hn] at hw
      cases hw
    · exact hothers (fun hs => hne (some.inj hs)) hp
  | @claimed o now f st c r cl =>
    obtain ⟨rfl, hn⟩ | ⟨hne, hp⟩ := goes_dispatchers hp
    · obtain ⟨htr, rfl⟩ := afterTryClaim_worked hn hw
      cases hw
      obtain ⟨md, -, -, -, ht, hc⟩ | ⟨-, -, -, hr⟩ :=
        claim_cases s ss c.id now (staleBefore config now) f
      · refine ⟨(congrFun hc _).trans (update_self ..), md.claimed now, ?_, .inl rfl⟩
        exact (congrFun ht _).trans (update_self ..)
      · exact absurd htr hr
    · exact hothers (fun hs => hne (some.inj hs)) hp
  | @delivered o st c r d rs =>
    obtain ⟨rfl, ⟨⟩⟩ | ⟨hne, hp⟩ := goes_dispatchers hp
    · exact h ss _ id d hw
    · exact hothers (fun hs => hne (some.inj hs)) hp
  | @marked o now f st c mr l r m =>
    obtain ⟨rfl, hn⟩ | ⟨hne, hp⟩ := goes_dispatchers hp
    · obtain ⟨sb, l', rfl, rfl⟩ := afterMark_worked hn hw
      cases hw
      have hmark : OutboxStep config s (.marked ss now f) _ := .marked m
      refine (h ss _ _ m rfl).step hmark ?_ ?_
      · rintro _ _ _ _ ⟨_, _, _, ⟨⟩, -⟩
      rintro o' c' mr' now' md ⟨f', st', l', r', ⟨⟩, m', -⟩ -
      rw [m] at m'
      cases m'
      exact ⟨sb, rfl⟩
    · exact hothers (fun hs => hne (some.inj hs)) hp

/-- A mark is sent by the dispatcher that holds the row. -/
lemma Held.fenced_step (h : Held s) (hf : Fenced s) (hs : OutboxStep config s event t) : Fenced t := by
  unfold Fenced
  cases outboxStep_change hs with
  | nothing _ _ _ _ log | enqueued _ _ _ _ _ log | claimed _ _ _ _ log => rwa [log]
  | marked m _ _ _ log =>
    obtain ⟨f, st, l, r, -, hm, -⟩ := m
    rw [log]
    intro r hr
    cases hr with
    | head => exact (h _ _ _ hm rfl).1
    | tail _ hr => exact hf r hr

/-! ## Rows that are taken over -/

/-- A dispatcher whose row another one has claimed changes the row once more, if it delivers in vain. -/
theorem overtaken {o ss : ℕ} {p : DispatchPhase} {id : ℤ} {m : MailOutboxModel}
    (hp : s.dispatchers o = some p) (hw : workedRow p = some id) (hr : s.table id = some m)
    (hpr : m.status = .processing) (hc : s.claimedBy id = some ss) (hne : o ≠ ss) :
    ∃ later t, Run (OutboxStep config) s later t ∧ ¬ Fenced t := by
  have hmarking : ∀ {s : OutboxSystem} {st c mr l r}, s.dispatchers o = some (.marking st c mr l r) →
      s.table c.id = some m → s.claimedBy c.id = some ss →
      ∃ t, OutboxStep config s (.marked o 0 .answered) t ∧ ¬ Fenced t := by
    intro s st c mr l r hp hr hc
    have hstep : OutboxStep config s (.marked o 0 .answered) _ := .marked hp
    refine ⟨_, hstep, fun hf => hne ?_⟩
    have hmarks : Marks s (.marked o 0 .answered) o c mr 0 m := ⟨_, st, l, r, rfl, hp, rfl, hr, hpr⟩
    have hlast := hf (s.record o c mr 0 m) (hmarks.logged hstep ▸ List.mem_cons_self)
    exact some.inj (hlast.symm.trans hc)
  cases p with
  | listing => cases hw
  | claiming st c r => cases hw
  | delivering st c r =>
    cases hw
    have hdelivered : OutboxStep config s (.delivered o (.error [])) _ := .delivered hp _
    have hmark : (s.goes o (.inl (afterDelivery config st c r (.error [])))).dispatchers o = some _ :=
      update_self ..
    obtain ⟨t, hs, hf⟩ := hmarking hmark hr hc
    exact ⟨_, t, .cons hdelivered (.cons hs (.nil t)), hf⟩
  | marking st c mr l r =>
    cases hw
    obtain ⟨t, hs, hf⟩ := hmarking hp hr hc
    exact ⟨_, t, .cons hs (.nil t), hf⟩

/-- A claim that takes the row of another dispatcher leaves it to be changed by that one. -/
lemma broken_of_disputed (hs : OutboxStep config s event t) (hd : ¬ Undisputed config s event) :
    ∃ later u, Run (OutboxStep config) t later u ∧ ¬ Fenced u := by
  unfold Undisputed at hd
  push Not at hd
  obtain ⟨ss, c, now, m, hcl, o, p, hne, hp, hw⟩ := hd
  obtain ⟨f, st, r, rfl, hc, he, hr, hdue⟩ := hcl
  cases hs with
  | claimed hc' =>
    rw [hc] at hc'
    cases hc'
    obtain ⟨m', -, -, -, ht, hby⟩ | ⟨hu, -⟩ := claim_cases s ss c.id now (staleBefore config now) f
    · have hrow : _ = some (m'.claimed now) := (congrFun ht _).trans (update_self ..)
      exact overtaken ((update_of_ne hne ..).trans hp) hw hrow rfl ((congrFun hby _).trans (update_self ..)) hne
    · exact absurd ((hu m he hr).symm.trans hdue) Bool.false_ne_true

/-! ## Finished rows and payloads -/

/-- Finished rows have lost their payloads, and the others have the ones that they were enqueued with. -/
def Cleared (s : OutboxSystem) : Prop :=
  ∀ id model, s.table id = some model →
    model.payloadJson = if model.status.isTerminal then clearedJson else s.enqueued id

lemma marked_payload (now : ℤ) (m : MailOutboxModel) (mr : DeliveryMark) : (m.marked now mr).payloadJson =
    if (m.marked now mr).status.isTerminal then clearedJson else m.payloadJson := by
  cases mr with
  | sent sb => rfl
  | retry a rds e => rfl
  | permanentFailure a e => rfl

/-- **One step** keeps the payloads of the rows that are not finished, and no others. -/
theorem Cleared.step (h : Cleared s) (hs : OutboxStep config s event t) : Cleared t := by
  intro id m hr
  cases outboxStep_change hs with
  | nothing _ tb _ e _ =>
    rw [tb] at hr
    rw [e]
    exact h id m hr
  | @enqueued id' r _ _ tb _ e _ =>
    rw [tb] at hr
    rw [e]
    obtain ⟨rfl, ⟨⟩⟩ | ⟨hne, hr⟩ := Table.update_eq_iff.mp hr
    · rw [update_self]
      rfl
    · rw [update_of_ne hne]
      exact h id m hr
  | @claimed _ c _ m' cl tb _ e _ =>
    obtain ⟨row, u⟩ := cl.row
    rw [tb] at hr
    rw [e]
    obtain ⟨rfl, ⟨⟩⟩ | ⟨-, hr⟩ := Table.update_eq_iff.mp hr
    · have hpay := h c.id m' row
      rwa [u] at hpay
    · exact h id m hr
  | @marked _ c mk now m' mr tb _ e _ =>
    rw [tb] at hr
    rw [e]
    obtain ⟨rfl, ⟨⟩⟩ | ⟨-, hr⟩ := Table.update_eq_iff.mp hr
    · obtain ⟨-, -, -, -, -, -, -, hm, hp⟩ := mr
      have hpay := h c.id m' hm
      rw [hp] at hpay
      rw [marked_payload, hpay]
      rfl
    · exact h id m hr

lemma finished_step {id : ℤ} {m : MailOutboxModel} (hr : s.table id = some m)
    (hf : m.status.isTerminal = true) (hs : OutboxStep config s event t) : t.table id = some m := by
  cases outboxStep_change hs with
  | nothing _ tb _ _ _ => rw [tb, hr]
  | enqueued _ f tb _ _ _ =>
    rw [tb, update_of_ne, hr]
    rintro rfl
    rw [f] at hr
    cases hr
  | claimed cl tb _ _ _ =>
    obtain ⟨row, u⟩ := cl.row
    rw [tb, update_of_ne, hr]
    rintro rfl
    rw [hr] at row
    cases row
    exact Bool.false_ne_true (u.symm.trans hf)
  | marked mr tb _ _ _ =>
    obtain ⟨-, -, -, -, -, -, -, hm, hp⟩ := mr
    rw [tb, update_of_ne, hr]
    rintro rfl
    rw [hr] at hm
    cases hm
    rw [hp] at hf
    cases hf

/-! ## Every run -/

/-- **The fence of the outbox.**  Whatever dispatchers do in whatever order: as long as no claim takes effect on
a row that another dispatcher delivers or marks, a dispatcher whose claim of a row is superseded changes that
row no more; and after a claim that does, it still may.  In every run, a row has lost its payload if it is
finished, and else has the one that it was enqueued with, and no step changes a row that is finished. -/
theorem mailOutbox_fenced {events : List OutboxEvent} (hinitial : s.Initial)
    (hrun : Run (OutboxStep config) s events t) :
    (Run (Guarded (Undisputed config) (OutboxStep config)) s events t → Fenced t) ∧
    (∀ event u, OutboxStep config t event u → ¬ Undisputed config t event →
      ∃ later v, Run (OutboxStep config) u later v ∧ ¬ Fenced v) ∧
    Cleared t ∧
    ∀ event u id model, OutboxStep config t event u → t.table id = some model →
      model.status.isTerminal = true → u.table id = some model := by
  obtain ⟨he, hi, hl⟩ := hinitial
  have hheld : Held s := by
    intro ss p id hp
    rw [hi ss] at hp
    cases hp
  have hfenced : Fenced s := by
    intro r hm
    rw [hl] at hm
    cases hm
  have hclear : Cleared s := by
    intro id model hr
    rw [he id] at hr
    cases hr
  refine ⟨?_, ?_, ?_, ?_⟩
  · intro hundisputed
    have hboth : Held t ∧ Fenced t := by
      refine hundisputed.invariant (I := fun s => Held s ∧ Fenced s) ?_ ⟨hheld, hfenced⟩
      exact fun _ _ _ h hs => ⟨h.1.step hs.1 hs.2, h.1.fenced_step h.2 hs.2⟩
    exact hboth.2
  · intro event u hs hd
    exact broken_of_disputed hs hd
  · exact hrun.invariant (fun _ _ _ h hs => h.step hs) hclear
  · intro event u id model hs hr hf
    exact finished_step hr hf hs

/-! ## Runs -/

def outboxConfig : MailOutboxDispatchConfig := ⟨10, 60, ⟨6, 1024⟩, []⟩

def outboxRequest : MailOutboxCreate := ⟨['t'], ['a'], none, ['p'], 0, 0⟩

def emptyOutbox : OutboxSystem := ⟨fun _ => none, fun _ => none, fun _ => none, fun _ => [], []⟩

/-- Two dispatchers list the same row. -/
def listedTwice : List OutboxEvent :=
  [.enqueued 1 outboxRequest, .began 0, .listed 0 0 (.ok [(1, outboxRequest.model)]), .began 1,
    .listed 1 0 (.ok [(1, outboxRequest.model)])]

lemma emptyOutbox_initial : emptyOutbox.Initial := ⟨fun _ => rfl, fun _ => rfl, rfl⟩

lemma listed_request : Listed (update emptyOutbox.table 1 (some outboxRequest.model)) 0 (-60 * second) 10
    [(1, outboxRequest.model)] :=
  listed_single (by decide) (by decide)

/-- The claim of the second dispatcher is refused, and the first one delivers the mail. -/
theorem mailOutbox_fenced_refused : ∃ t, Fenced t ∧ Cleared t ∧ t.log = [⟨0, 1, some 0, .sent ['s'], 0, 0⟩] := by
  have hunclaimed : ∀ {s e}, (∀ ss now f, e ≠ .claimed ss now f) → Undisputed outboxConfig s e := by
    rintro s e hne ss _ _ _ ⟨f, _, _, he, -⟩
    exact absurd he (hne ss _ f)
  have hidle : ∀ {s e}, (∀ o p, s.dispatchers o = some p → workedRow p = none) → Undisputed outboxConfig s e := by
    intro s e hn ss c now m hc o p hne hp hw
    cases (hn o p hp).symm.trans hw
  obtain ⟨t, hrun, hlog⟩ : ∃ t, Run (Guarded (Undisputed outboxConfig) (OutboxStep outboxConfig)) emptyOutbox
      (listedTwice ++ [.claimed 0 0 .answered, .claimed 1 0 .answered, .delivered 0 (.ok ['s']),
        .marked 0 0 .answered]) t ∧ t.log = [⟨0, 1, some 0, .sent ['s'], 0, 0⟩] := by
    refine ⟨_, .cons ⟨hunclaimed nofun, .enqueued rfl rfl⟩ <| .cons ⟨hunclaimed nofun, .began rfl⟩ <|
      .cons ⟨hunclaimed nofun, .listed rfl listed_request⟩ <| .cons ⟨hunclaimed nofun, .began rfl⟩ <|
      .cons ⟨hunclaimed nofun, .listed rfl listed_request⟩ <| .cons ⟨hidle ?_, .claimed rfl⟩ <|
      .cons ⟨?_, .claimed rfl⟩ <| .cons ⟨hunclaimed nofun, .delivered rfl _⟩ <|
      .cons ⟨hunclaimed nofun, .marked rfl⟩ <| .nil _, rfl⟩
    · intro o p hp
      iterate 4
        obtain ⟨-, ⟨⟩⟩ | ⟨-, hp⟩ := goes_dispatchers hp
        · rfl
      cases hp
    · rintro ss c now m ⟨f, st, r, ⟨⟩, hc, -, hr, hdue⟩
      cases hc
      cases hr
      exact absurd hdue (by decide)
  have hfence := mailOutbox_fenced emptyOutbox_initial (hrun.mono fun _ _ _ => And.right)
  exact ⟨t, hfence.1 hrun, hfence.2.2.1, hlog⟩

/-- **A dispatcher that changes a row under the claim of another one**: the second dispatcher claims the row as
stale, and then the first one marks it for a retry. -/
theorem mailOutbox_counterexample :
    ¬ ∀ (config : MailOutboxDispatchConfig) s t events, s.Initial → Run (OutboxStep config) s events t →
      Fenced t := by
  intro hf
  have hrun : Run (OutboxStep outboxConfig) emptyOutbox
      (listedTwice ++ [.claimed 0 0 .answered, .claimed 1 (60 * second) .answered, .delivered 0 (.error []),
        .marked 0 (60 * second) .answered]) _ :=
    .cons (.enqueued rfl rfl) <| .cons (.began rfl) <| .cons (.listed rfl listed_request) <| .cons (.began rfl) <|
      .cons (.listed rfl listed_request) <| .cons (.claimed rfl) <| .cons (.claimed rfl) <|
      .cons (.delivered rfl _) <| .cons (.marked rfl) <| .nil _
  have hlast := hf _ _ _ _ emptyOutbox_initial hrun ⟨0, 1, some 1, .retry 1 5 [], 0, 1⟩ List.mem_cons_self
  cases hlast

end AsterForge.Db
