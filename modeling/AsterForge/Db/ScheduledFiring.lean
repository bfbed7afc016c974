import AsterForge.Db.ScheduledTask
import AsterForge.Library.Runs

/-!
# Firings of scheduled tasks

Any number of runtimes send their statements in any order.  A claim is known to the database by its owner and
the instant at which it was made; since no owner makes two claims of a task at one instant, a claim that was
taken over does not become current again.

* **`scheduledTask_fenced`** — each firing is completed at most once, by the claim that is current.
-/

namespace AsterForge.Db

open Library Table ScheduledCall List Function Option

/-! ## Effects -/

inductive FiringEffect
  | granted (claim : ScheduledTaskClaim)
  | renewed (claim : ScheduledTaskClaim)
  | completed (claim : ScheduledTaskClaim) (nextRunAt : ℤ)

def ScheduledCall.effect (table : ScheduledTaskTable) (fate : Fate DbErr) : ScheduledCall → Option FiringEffect
  | .claiming request taskId existing claimExpiresAt =>
    if fate.tookEffect = true ∧ (claimTask table request taskId existing claimExpiresAt).2 = .ok 1 then
      some (.granted (claimOf request taskId existing claimExpiresAt))
    else none
  | .renewing renewal claimExpiresAt =>
    if fate.tookEffect = true ∧ (renewTask table renewal claimExpiresAt).2 = .ok 1 then
      some (.renewed renewal.claim)
    else none
  | .completing completion =>
    if fate.tookEffect = true ∧ (completeTask table completion).2 = .ok 1 then
      some (.completed completion.claim completion.nextRunAt)
    else none
  | .inserting .. | .finding .. | .updating .. | .rereading _ | .looking .. => none

def SameFiring (model model' : ScheduledTaskModel) : Prop :=
  model'.nextRunAt = model.nextRunAt ∧ model'.claimOwnerId = model.claimOwnerId ∧
    model'.lastClaimedAt = model.lastClaimedAt

/-- No unexpired claim is in a row. -/
def Unclaimed (model : ScheduledTaskModel) (now : ℤ) : Prop :=
  ∀ ownerId expiresAt, model.claimOwnerId = some ownerId → model.claimExpiresAt = some expiresAt →
    expiresAt ≤ now

inductive Fired (table : ScheduledTaskTable) : Option FiringEffect → ScheduledTaskTable → Prop
  | nothing : Fired table none table
  | added {taskId : Text} {model : ScheduledTaskModel} (absent : table taskId = none)
      (unclaimed : model.claimOwnerId = none) : Fired table none (update table taskId (some model))
  | renamed {taskId : Text} {model model' : ScheduledTaskModel} (row : table taskId = some model)
      (same : SameFiring model model') : Fired table none (update table taskId (some model'))
  | granted {claim : ScheduledTaskClaim} {model model' : ScheduledTaskModel}
      (row : table claim.taskId = some model) (scheduled : model.nextRunAt = claim.scheduledAt)
      (due : model.nextRunAt ≤ claim.claimedAt) (unclaimed : Unclaimed model claim.claimedAt)
      (kept : model'.nextRunAt = model.nextRunAt) (current : currentFor claim model' = true) :
      Fired table (some (.granted claim)) (update table claim.taskId (some model'))
  | renewed {claim : ScheduledTaskClaim} {model model' : ScheduledTaskModel}
      (row : table claim.taskId = some model) (current : currentFor claim model = true)
      (same : SameFiring model model') :
      Fired table (some (.renewed claim)) (update table claim.taskId (some model'))
  | completed {claim : ScheduledTaskClaim} {model model' : ScheduledTaskModel} {nextRunAt : ℤ}
      (row : table claim.taskId = some model) (current : currentFor claim model = true)
      (moved : model'.nextRunAt = nextRunAt) (unclaimed : model'.claimOwnerId = none) :
      Fired table (some (.completed claim nextRunAt)) (update table claim.taskId (some model'))

variable {duplicateKey : Text → DbErr} {table : ScheduledTaskTable} (e : ScheduledTaskCatalogEntry)

lemma insertTask_fired (ti : Text) : Fired table none (insertTask duplicateKey table e ti).1 := by
  unfold insertTask
  split
  case h_1 table' hins =>
    obtain ⟨ha, rfl⟩ := insertRow_eq_some hins
    exact .added ha rfl
  case h_2 => exact .nothing

lemma renameTask_fired (ti : Text) : Fired table none (renameTask table e ti).1 := by
  unfold renameTask
  obtain ⟨model, hr, -, hu⟩ | ⟨-, hu⟩ := updateWhere_cases table ti (fun _ => true)
    fun model => { model with displayName := e.displayName, updatedAt := e.firstRunAt }
  · rw [hu]
    exact .renamed hr ⟨rfl, rfl, rfl⟩
  · rw [hu]
    exact .nothing

variable {taskId : Text} {effect : FiringEffect} {model model' : ScheduledTaskModel} {call : ScheduledCall}

/-- What an update on a condition does: the effect that it is for, on a row that meets the condition, or
nothing. -/
lemma update_fired {c : ScheduledTaskModel → Bool}
    {change : ScheduledTaskModel → ScheduledTaskModel} (fate : Fate DbErr)
    (hf : ∀ model, table taskId = some model → c model = true →
      Fired table (some effect) (update table taskId (some (change model)))) :
    Fired table
      (if fate.tookEffect = true ∧ (.ok (table.updateWhere taskId c change).2 : Except DbErr ℕ) = .ok 1
        then some effect else none)
      (if fate.tookEffect then (table.updateWhere taskId c change).1 else table) := by
  cases fate.tookEffect with
  | false => exact .nothing
  | true =>
    obtain ⟨model, hr, hm, hu⟩ | ⟨-, hu⟩ := table.updateWhere_cases taskId c change
    · rw [hu]
      exact hf model hr hm
    · rw [hu]
      exact .nothing

lemma nothing_of_fate {t' : ScheduledTaskTable} (fate : Fate DbErr) (h : Fired table none t') :
    Fired table none (if fate.tookEffect then t' else table) := by
  cases fate.tookEffect with
  | false => exact .nothing
  | true => exact h

lemma unclaimed_of_claimable {r : ScheduledTaskClaimRequest} {e : ScheduledTaskModel}
    (h : claimable r e model = true) :
    model.nextRunAt = e.nextRunAt ∧ model.nextRunAt ≤ r.now ∧ Unclaimed model r.now := by
  obtain ⟨hs, hd, ha⟩ := of_decide_eq_true h
  refine ⟨hs, hd, ?_⟩
  intro oi ea ho hex
  obtain hn | hn | ⟨ea', hm, he⟩ := ha
  · rw [ho] at hn
    cases hn
  · rw [hex] at hn
    cases hn
  · rw [hex] at hm
    cases hm
    exact he

/-- **One statement** of a call, whatever its fate. -/
theorem ScheduledCall.fired (cl : ScheduledCall) (fate : Fate DbErr) :
    Fired table (cl.effect table fate) (cl.run duplicateKey table fate).1 := by
  cases cl with
  | inserting e taskId =>
    rw [run, Prod.map_fst, Fate.apply_fst]
    exact nothing_of_fate fate (insertTask_fired e taskId)
  | finding e taskId insertError | rereading taskId =>
    rw [run, Prod.map_fst, Fate.apply_fst]
    exact nothing_of_fate fate .nothing
  | updating e taskId =>
    rw [run, Prod.map_fst, Fate.apply_fst]
    exact nothing_of_fate fate (renameTask_fired e taskId)
  | looking r taskId =>
    rw [run, Prod.map_fst, Fate.apply_fst]
    exact nothing_of_fate fate .nothing
  | claiming r taskId ex cea =>
    rw [run, Prod.map_fst, Fate.apply_fst]
    refine update_fired fate ?_
    intro model hr hm
    obtain ⟨hs, hd, hu⟩ := unclaimed_of_claimable hm
    exact .granted hr hs hd hu rfl (decide_eq_true ⟨rfl, rfl⟩)
  | renewing rn cea =>
    rw [run, Prod.map_fst, Fate.apply_fst]
    refine update_fired fate ?_
    intro model hr hm
    exact .renewed hr hm ⟨rfl, rfl, rfl⟩
  | completing c =>
    rw [run, Prod.map_fst, Fate.apply_fst]
    refine update_fired fate ?_
    intro model hr hm
    exact .completed hr hm rfl rfl

/-! ## The calls of all runtimes -/

/-- What makes a claim of a task known: its owner and its instant. -/
abbrev ClaimToken := Text × Text × ℤ

def ScheduledTaskClaim.token (claim : ScheduledTaskClaim) : ClaimToken :=
  (claim.taskId, claim.ownerId, claim.claimedAt)

/-- A call of the store as a runtime makes it. -/
inductive ScheduledCommand
  | ensureTask (entry : ScheduledTaskCatalogEntry)
  | claimDue (request : ScheduledTaskClaimRequest)
  | renewClaim (renewal : ScheduledTaskClaimRenewal)
  | completeClaim (completion : ScheduledTaskCompletion)

def ScheduledCommand.start : ScheduledCommand → ScheduledCall ⊕ ScheduledAnswer
  | .ensureTask entry => Db.ensureTask entry
  | .claimDue request => Db.claimDue request
  | .renewClaim renewal => Db.renewClaim renewal
  | .completeClaim completion => Db.completeClaim completion

/-- The table, the calls that wait for a statement, the claims that were asked for, and what was done to the
firings, the last first. -/
structure ScheduledSystem where
  table : ScheduledTaskTable
  calls : ℕ → Option ScheduledCall
  asked : List ClaimToken
  log : List FiringEffect

def ScheduledSystem.Initial (s : ScheduledSystem) : Prop :=
  (∀ taskId, s.table taskId = none) ∧ (∀ session, s.calls session = none) ∧ s.asked = [] ∧ s.log = []

def ScheduledCommand.token : ScheduledCommand → Option ClaimToken
  | .claimDue request => some (taskKey request.taskNamespace request.taskName, request.ownerId, request.now)
  | .ensureTask _ | .renewClaim _ | .completeClaim _ => none

/-- What runtimes keep to: the instants at which one of them claims a task increase, and they renew and
complete claims that they were granted. -/
def ScheduledCommand.Allowed (s : ScheduledSystem) : ScheduledCommand → Prop
  | .ensureTask _ => True
  | .claimDue request => ∀ earlier,
      (taskKey request.taskNamespace request.taskName, request.ownerId, earlier) ∈ s.asked →
        earlier < request.now
  | .renewClaim renewal => .granted renewal.claim ∈ s.log
  | .completeClaim completion => .granted completion.claim ∈ s.log

inductive ScheduledEvent
  | called (session : ℕ) (command : ScheduledCommand)
  | ran (session : ℕ) (fate : Fate DbErr)

variable (duplicateKey)

/-- Calls are made at any time, and their statements come in any order. -/
inductive ScheduledStep : ScheduledSystem → ScheduledEvent → ScheduledSystem → Prop
  | called {s : ScheduledSystem} {session : ℕ} (command : ScheduledCommand)
      (idle : s.calls session = none) (allowed : command.Allowed s) :
      ScheduledStep s (.called session command)
        { s with calls := update s.calls session command.start.getLeft?
                 asked := command.token.toList ++ s.asked }
  | ran {s : ScheduledSystem} {session : ℕ} {call : ScheduledCall} (fate : Fate DbErr)
      (pending : s.calls session = some call) :
      ScheduledStep s (.ran session fate)
        { s with table := (call.run duplicateKey s.table fate).1
                 calls := update s.calls session (call.run duplicateKey s.table fate).2.getLeft?
                 log := (call.effect s.table fate).toList ++ s.log }

variable {duplicateKey}

/-! ## What calls wait with -/

def ScheduledCall.token : ScheduledCall → Option ClaimToken
  | .looking request taskId | .claiming request taskId _ _ => some (taskId, request.ownerId, request.now)
  | .inserting .. | .finding .. | .updating .. | .rereading _ | .renewing .. | .completing _ => none

def ScheduledCall.claim : ScheduledCall → Option ScheduledTaskClaim
  | .renewing renewal _ => some renewal.claim
  | .completing completion => some completion.claim
  | .inserting .. | .finding .. | .updating .. | .rereading _ | .looking .. | .claiming .. => none

def ScheduledCall.MovesOn : ScheduledCall → Prop
  | .completing completion => completion.claim.scheduledAt < completion.nextRunAt
  | _ => True

lemma getLeft?_eq_some {α β : Type} {x : α ⊕ β} {a : α} (h : x.getLeft? = some a) : x = .inl a := by
  cases x with
  | inl a' => exact congrArg Sum.inl (some.inj h)
  | inr b => cases h

lemma scheduledTaskRowId_eq_ok {tn ts : Text}
    (h : scheduledTaskRowId tn ts = .ok taskId) : taskId = taskKey tn ts := by
  obtain ⟨-, -, h⟩ := bind_eq_ok.mp h
  exact (Except.ok.inj h).symm

variable {cm : ScheduledCommand} {f : Fate DbErr} {ti' : Text}

lemma ScheduledCommand.start_eq (h : cm.start = .inl call) : call.token = cm.token ∧ call.MovesOn ∧
    ∀ s claim, cm.Allowed s → call.claim = some claim → .granted claim ∈ s.log := by
  cases cm with
  | ensureTask e =>
    replace h : Db.ensureTask e = .inl call := h
    unfold Db.ensureTask at h
    split at h
    case h_1 taskId hid =>
      cases h
      exact ⟨rfl, trivial, nofun⟩
    case h_2 => cases h
  | claimDue r =>
    replace h : Db.claimDue r = .inl call := h
    unfold Db.claimDue at h
    split at h
    case h_1 taskId hid =>
      cases h
      obtain ⟨-, -, hid⟩ := bind_eq_ok.mp hid
      rw [scheduledTaskRowId_eq_ok hid]
      exact ⟨rfl, trivial, nofun⟩
    case h_2 => cases h
  | renewClaim rn =>
    replace h : Db.renewClaim rn = .inl call := h
    unfold Db.renewClaim at h
    split at h
    case h_1 claimExpiresAt hexp =>
      cases h
      refine ⟨rfl, trivial, ?_⟩
      rintro s claim ha ⟨⟩
      exact ha
    case h_2 => cases h
  | completeClaim c =>
    replace h : Db.completeClaim c = .inl call := h
    unfold Db.completeClaim at h
    split at h
    case h_1 hvalid =>
      cases h
      refine ⟨rfl, not_le.mp (refuse_eq_ok.mp hvalid), ?_⟩
      rintro s claim ha ⟨⟩
      exact ha
    case h_2 => cases h

/-- What a call goes on with asks for the same claim, which it was not granted yet, and neither renews nor
completes one. -/
lemma ScheduledCall.run_eq {next : ScheduledCall} (h : (call.run duplicateKey table f).2 = .inl next) :
    next.token = call.token ∧ next.claim = none ∧ next.MovesOn ∧ call.effect table f = none := by
  cases run_goesOn h with
  | find entry taskId insertError | rename entry taskId insertError => exact ⟨rfl, rfl, trivial, rfl⟩
  | reread entry taskId | claim request taskId existing claimExpiresAt => exact ⟨rfl, rfl, trivial, rfl⟩

lemma ScheduledCall.effect_eq (h : call.effect table f = some effect) :
    (∃ claim, effect = .granted claim ∧ call.token = some claim.token) ∨
    (∃ claim, effect = .renewed claim ∧ call.claim = some claim) ∨
    ∃ claim nra, effect = .completed claim nra ∧ call.claim = some claim ∧
      (call.MovesOn → claim.scheduledAt < nra) := by
  cases call with
  | claiming r taskId e cea =>
    unfold ScheduledCall.effect at h
    dsimp only at h
    split_ifs at h
    cases h
    exact .inl ⟨_, rfl, rfl⟩
  | renewing rn cea =>
    unfold ScheduledCall.effect at h
    dsimp only at h
    split_ifs at h
    cases h
    exact .inr (.inl ⟨_, rfl, rfl⟩)
  | completing c =>
    unfold ScheduledCall.effect at h
    dsimp only at h
    split_ifs at h
    cases h
    exact .inr (.inr ⟨_, _, rfl, rfl, fun hm => hm⟩)
  | _ => cases h

/-! ## The record of what was done -/

def FiringEffect.grant : FiringEffect → Option ScheduledTaskClaim
  | .granted claim => some claim
  | .renewed _ | .completed .. => none

def FiringEffect.used : FiringEffect → Option ScheduledTaskClaim
  | .renewed claim | .completed claim _ => some claim
  | .granted _ => none

def FiringEffect.firing : FiringEffect → Option (Text × ℤ)
  | .completed claim _ => some (claim.taskId, claim.scheduledAt)
  | .granted _ | .renewed _ => none

def grants (log : List FiringEffect) : List ScheduledTaskClaim := log.filterMap FiringEffect.grant

def firings (log : List FiringEffect) : List (Text × ℤ) := log.filterMap FiringEffect.firing

def latest (taskId : Text) (log : List FiringEffect) : Option ScheduledTaskClaim :=
  (grants log).find? fun claim => claim.taskId = taskId

/-- Whenever a claim is renewed or completed, no other claim of its task was granted since it was. -/
def Fencing (log : List FiringEffect) : Prop :=
  ∀ later effect earlier claim, log = later ++ effect :: earlier → effect.used = some claim →
    latest claim.taskId earlier = some claim

variable {log : List FiringEffect} {claim : ScheduledTaskClaim}

lemma mem_grants : claim ∈ grants log ↔ .granted claim ∈ log := by
  unfold grants
  rw [mem_filterMap]
  constructor
  · rintro ⟨effect, hm, hg⟩
    cases effect with
    | granted c' =>
      cases hg
      exact hm
    | renewed c' => cases hg
    | completed c' nra => cases hg
  · intro hm
    exact ⟨_, hm, rfl⟩

lemma mem_firings {f : Text × ℤ} : f ∈ firings log ↔
    ∃ claim nra, .completed claim nra ∈ log ∧ f = (claim.taskId, claim.scheduledAt) := by
  unfold firings
  rw [mem_filterMap]
  constructor
  · rintro ⟨effect, hm, hf⟩
    cases effect with
    | granted c' => cases hf
    | renewed c' => cases hf
    | completed c' nra =>
      cases hf
      exact ⟨c', nra, hm, rfl⟩
  · rintro ⟨claim, nra, hm, rfl⟩
    exact ⟨_, hm, rfl⟩

lemma latest_eq_some (h : latest taskId log = some claim) : claim ∈ grants log ∧ claim.taskId = taskId := by
  refine ⟨mem_of_find?_eq_some h, ?_⟩
  have hfound := find?_some h
  exact of_decide_eq_true hfound

@[simp] lemma latest_granted_self : latest claim.taskId (.granted claim :: log) = some claim :=
  find?_cons_of_pos (decide_eq_true rfl)

lemma latest_granted_of_ne (h : taskId ≠ claim.taskId) :
    latest taskId (.granted claim :: log) = latest taskId log :=
  find?_cons_of_neg fun hs => h (of_decide_eq_true hs).symm

lemma Fencing.cons {et : FiringEffect} (h : Fencing log)
    (hu : ∀ claim, et.used = some claim → latest claim.taskId log = some claim) : Fencing (et :: log) := by
  intro l ef' e claim hs hu'
  cases l with
  | nil =>
    cases hs
    exact hu claim hu'
  | cons first l =>
    cases hs
    exact h l ef' e claim rfl hu'

/-! ## Rows -/

/-- What the rows say about what was done: an owner in a row is the one of the last claim, which is of the
firing that the row is at; and a row is beyond the firings that were completed. -/
structure RowsInv (table : ScheduledTaskTable) (log : List FiringEffect) : Prop where
  current : ∀ taskId model ownerId, table taskId = some model → model.claimOwnerId = some ownerId →
    ∃ claim, latest taskId log = some claim ∧ claim.ownerId = ownerId ∧
      model.lastClaimedAt = some claim.claimedAt ∧ model.nextRunAt = claim.scheduledAt
  beyond : ∀ claim nextRunAt, .completed claim nextRunAt ∈ log →
    ∃ model, table claim.taskId = some model ∧ claim.scheduledAt < model.nextRunAt
  once : (firings log).Nodup
  fencing : Fencing log

lemma RowsInv.of_currentFor (hi : RowsInv table log)
    (hd : ((grants log).map ScheduledTaskClaim.token).Nodup) (hg : .granted claim ∈ log)
    (hr : table claim.taskId = some model) (hcr : currentFor claim model = true) :
    latest claim.taskId log = some claim ∧ model.nextRunAt = claim.scheduledAt := by
  obtain ⟨ho, hc⟩ := of_decide_eq_true hcr
  obtain ⟨l, hlt, hls, hl, hs⟩ := hi.current _ _ _ hr ho
  obtain ⟨hla, ht⟩ := latest_eq_some hlt
  have htoken : l.token = claim.token := by
    rw [hc] at hl
    rw [ScheduledTaskClaim.token, ScheduledTaskClaim.token, ht, hls, some.inj hl]
  have hsame : l = claim := inj_on_of_nodup_map hd hla (mem_grants.mpr hg) htoken
  subst hsame
  exact ⟨hlt, hs⟩

lemma RowsInv.beyond_update (hi : RowsInv table log)
    (hm : ∀ model, table taskId = some model → model.nextRunAt ≤ model'.nextRunAt)
    {c : ScheduledTaskClaim} {nra : ℤ} (hmm : .completed c nra ∈ log) :
    ∃ model, update table taskId (some model') c.taskId = some model ∧ c.scheduledAt < model.nextRunAt := by
  obtain ⟨model, hr, hb⟩ := hi.beyond c nra hmm
  by_cases hsame : c.taskId = taskId
  · subst hsame
    exact ⟨model', update_self .., hb.trans_le (hm model hr)⟩
  · exact ⟨model, (update_of_ne hsame ..).trans hr, hb⟩

lemma RowsInv.current_update (hi : RowsInv table log)
    (hs : ∀ oi, model'.claimOwnerId = some oi → ∃ model, table taskId = some model ∧ SameFiring model model')
    {oi : Text} {m'' : ScheduledTaskModel} (hr : update table taskId (some model') ti' = some m'')
    (ho : m''.claimOwnerId = some oi) : ∃ claim, latest ti' log = some claim ∧ claim.ownerId = oi ∧
      m''.lastClaimedAt = some claim.claimedAt ∧ m''.nextRunAt = claim.scheduledAt := by
  obtain ⟨rfl, ⟨⟩⟩ | ⟨-, hr⟩ := update_eq_iff.mp hr
  · obtain ⟨model, hr', hn, ho', hc⟩ := hs oi ho
    rw [ho'] at ho
    rw [hn, hc]
    exact hi.current _ _ _ hr' ho
  · exact hi.current _ _ _ hr ho

/-- **One statement** keeps what the rows say. -/
theorem RowsInv.fired {e : Option FiringEffect} {t' : ScheduledTaskTable} (hi : RowsInv table log)
    (hd : ((grants log).map ScheduledTaskClaim.token).Nodup) (hf : Fired table e t')
    (hh : ∀ d claim, e = some d → d.used = some claim → .granted claim ∈ log)
    (hmv : ∀ claim nra, e = some (.completed claim nra) → claim.scheduledAt < nra) :
    RowsInv t' (e.toList ++ log) := by
  cases hf with
  | nothing => exact hi
  | @added taskId model a u =>
    refine ⟨fun _ _ _ => hi.current_update ?_, ?_, hi.once, hi.fencing⟩
    · intro oi ho
      rw [u] at ho
      cases ho
    · intro claim nra hm
      refine hi.beyond_update ?_ hm
      intro model hr
      rw [a] at hr
      cases hr
  | @renamed taskId model model' row sm =>
    refine ⟨fun _ _ _ => hi.current_update fun _ _ => ⟨model, row, sm⟩, ?_, hi.once, hi.fencing⟩
    intro claim nra hm
    refine hi.beyond_update ?_ hm
    intro m'' hr
    rw [row] at hr
    cases hr
    exact sm.1.ge
  | @granted claim model model' row sc due u k cr =>
    refine ⟨?_, ?_, hi.once, hi.fencing.cons nofun⟩
    · intro taskId m'' oi hr ho
      obtain ⟨rfl, ⟨⟩⟩ | ⟨hne, hr⟩ := update_eq_iff.mp hr
      · obtain ⟨ho', hc⟩ := of_decide_eq_true cr
        rw [ho'] at ho
        exact ⟨claim, latest_granted_self, some.inj ho, hc, k.trans sc⟩
      · change ∃ c', latest taskId (.granted claim :: log) = some c' ∧ _
        rw [latest_granted_of_ne hne]
        exact hi.current _ _ _ hr ho
    · intro c' nra hm
      replace hm := (mem_cons.mp hm).resolve_left nofun
      refine hi.beyond_update ?_ hm
      intro m'' hr
      rw [row] at hr
      cases hr
      exact k.ge
  | @renewed claim model model' row cr sm =>
    have hl := hi.of_currentFor hd (hh _ claim rfl rfl) row cr
    refine ⟨fun _ _ _ => hi.current_update fun _ _ => ⟨model, row, sm⟩, ?_, hi.once, ?_⟩
    · intro c' nra hm
      replace hm := (mem_cons.mp hm).resolve_left nofun
      refine hi.beyond_update ?_ hm
      intro m'' hr
      rw [row] at hr
      cases hr
      exact sm.1.ge
    · refine hi.fencing.cons ?_
      rintro c' ⟨⟩
      exact hl.1
  | @completed claim model model' nra row cr mv u =>
    obtain ⟨hl, hs⟩ := hi.of_currentFor hd (hh _ claim rfl rfl) row cr
    have hmoved := hmv claim nra rfl
    refine ⟨fun _ _ _ => hi.current_update ?_, ?_, ?_, ?_⟩
    · intro oi ho
      rw [u] at ho
      cases ho
    · intro c' nra' hm
      obtain hn | hm := mem_cons.mp hm
      · cases hn
        exact ⟨model', update_self .., by omega⟩
      · refine hi.beyond_update ?_ hm
        intro m'' hr
        rw [row] at hr
        cases hr
        omega
    · refine nodup_cons.mpr ⟨?_, hi.once⟩
      intro hm
      obtain ⟨c', nra', hm, hsm⟩ := mem_firings.mp hm
      obtain ⟨ht, hfr⟩ := Prod.mk.inj hsm
      obtain ⟨m'', hr, hb⟩ := hi.beyond c' nra' hm
      rw [← ht, row] at hr
      cases hr
      omega
    · refine hi.fencing.cons ?_
      rintro c' ⟨⟩
      exact hl

/-! ## Calls -/

/-- What the calls that wait have to do with what was asked for and granted: a claim is granted once, and
waits in one call until then. -/
structure CallsInv (s : ScheduledSystem) : Prop where
  pending : ∀ session call token, s.calls session = some call → call.token = some token →
    token ∈ s.asked ∧ token ∉ (grants s.log).map ScheduledTaskClaim.token
  one : ∀ i j call call' token, s.calls i = some call → s.calls j = some call' →
    call.token = some token → call'.token = some token → i = j
  held : ∀ session call claim, s.calls session = some call → call.claim = some claim → .granted claim ∈ s.log
  moves : ∀ session call, s.calls session = some call → call.MovesOn
  asked : ∀ token ∈ (grants s.log).map ScheduledTaskClaim.token, token ∈ s.asked
  once : ((grants s.log).map ScheduledTaskClaim.token).Nodup

variable {s t : ScheduledSystem} {event : ScheduledEvent}

lemma fresh_token {tk : ClaimToken} (ha : cm.Allowed s) (ht : cm.token = some tk) : tk ∉ s.asked := by
  cases cm with
  | claimDue r =>
    cases ht
    intro hm
    exact lt_irrefl _ (ha _ hm)
  | ensureTask e => cases ht
  | renewClaim rn => cases ht
  | completeClaim c => cases ht

lemma CallsInv.called (hin : CallsInv s) {ss : ℕ} (command : ScheduledCommand) (ha : command.Allowed s) :
    CallsInv { s with calls := update s.calls ss command.start.getLeft?
                      asked := command.token.toList ++ s.asked } := by
  have hkept : ∀ tk, tk ∈ s.asked → tk ∈ command.token.toList ++ s.asked :=
    fun tk hm => mem_append_right _ hm
  have hnew : ∀ call tk, command.start.getLeft? = some call → call.token = some tk →
      tk ∈ command.token.toList ∧ tk ∉ s.asked := by
    intro call tk hs ht
    rw [(ScheduledCommand.start_eq (getLeft?_eq_some hs)).1] at ht
    exact ⟨mem_toList.mpr ht, fresh_token ha ht⟩
  refine ⟨?_, ?_, ?_, ?_, fun tk hm => hkept tk (hin.asked tk hm), hin.once⟩
  · intro ss' call tk hc ht
    obtain ⟨-, hs⟩ | ⟨-, hc⟩ := update_eq_iff.mp hc
    · obtain ⟨hm, hf⟩ := hnew call tk hs ht
      exact ⟨mem_append_left _ hm, fun hg => hf (hin.asked tk hg)⟩
    · obtain ⟨hm, hf⟩ := hin.pending ss' call tk hc ht
      exact ⟨hkept tk hm, hf⟩
  · intro i j call c' tk hc hc' ht ht'
    obtain ⟨hi, hs⟩ | ⟨-, hc⟩ := update_eq_iff.mp hc
    · obtain ⟨hj, -⟩ | ⟨-, hc'⟩ := update_eq_iff.mp hc'
      · rw [hi, hj]
      · have hm := (hin.pending j c' tk hc' ht').1
        exact absurd hm (hnew call tk hs ht).2
    · obtain ⟨-, hs'⟩ | ⟨-, hc'⟩ := update_eq_iff.mp hc'
      · have hm := (hin.pending i call tk hc ht).1
        exact absurd hm (hnew c' tk hs' ht').2
      · exact hin.one i j call c' tk hc hc' ht ht'
  · intro ss' call claim hc hcl
    obtain ⟨-, hs⟩ | ⟨-, hc⟩ := update_eq_iff.mp hc
    · exact (ScheduledCommand.start_eq (getLeft?_eq_some hs)).2.2 s claim ha hcl
    · exact hin.held ss' call claim hc hcl
  · intro ss' call hc
    obtain ⟨-, hs⟩ | ⟨-, hc⟩ := update_eq_iff.mp hc
    · exact (ScheduledCommand.start_eq (getLeft?_eq_some hs)).2.1
    · exact hin.moves ss' call hc

lemma CallsInv.ran (hin : CallsInv s) {ss : ℕ} (fate : Fate DbErr) (hp : s.calls ss = some call) :
    CallsInv { s with
      table := (call.run duplicateKey s.table fate).1
      calls := update s.calls ss (call.run duplicateKey s.table fate).2.getLeft?
      log := (call.effect s.table fate).toList ++ s.log } := by
  have hgrants : (grants ((call.effect s.table fate).toList ++ s.log) = grants s.log) ∨
      ∃ claim, grants ((call.effect s.table fate).toList ++ s.log) = claim :: grants s.log ∧
        call.token = some claim.token := by
    cases he : call.effect s.table fate with
    | none => exact .inl rfl
    | some effect =>
      obtain ⟨claim, rfl, ht⟩ | ⟨claim, rfl, -⟩ | ⟨claim, nra, rfl, -⟩ :=
        effect_eq he
      · exact .inr ⟨claim, rfl, ht⟩
      · exact .inl rfl
      · exact .inl rfl
  have hn : ∀ next, (call.run duplicateKey s.table fate).2.getLeft? = some next →
      next.token = call.token ∧ next.claim = none ∧ next.MovesOn ∧ call.effect s.table fate = none :=
    fun next hn => run_eq (getLeft?_eq_some hn)
  refine ⟨?_, ?_, ?_, ?_, ?_, ?_⟩
  · intro ss' c' tk hc ht
    obtain ⟨rfl, hr⟩ | ⟨hne, hc⟩ := update_eq_iff.mp hc
    · obtain ⟨hs, -, -, he⟩ := hn c' hr
      rw [he]
      exact hin.pending ss' call tk hp (hs.symm.trans ht)
    · obtain ⟨hm, hf⟩ := hin.pending ss' c' tk hc ht
      refine ⟨hm, ?_⟩
      obtain hs | ⟨claim, hs, hcl⟩ := hgrants
      · rw [hs]
        exact hf
      · rw [hs, map_cons, mem_cons, not_or]
        refine ⟨?_, hf⟩
        rintro rfl
        exact hne (hin.one ss' ss c' call _ hc hp ht hcl)
  · intro i j ca cl tk hc hc' ht ht'
    obtain ⟨rfl, hr⟩ | ⟨-, hi⟩ := update_eq_iff.mp hc
    · obtain ⟨hj, -⟩ | ⟨-, hj⟩ := update_eq_iff.mp hc'
      · exact hj.symm
      · exact hin.one i j call cl tk hp hj ((hn _ hr).1.symm.trans ht) ht'
    · obtain ⟨rfl, hr'⟩ | ⟨-, hj⟩ := update_eq_iff.mp hc'
      · exact hin.one i j ca call tk hi hp ht ((hn _ hr').1.symm.trans ht')
      · exact hin.one i j ca cl tk hi hj ht ht'
  · intro ss' c' claim hc hcl
    obtain ⟨-, hr⟩ | ⟨-, hc⟩ := update_eq_iff.mp hc
    · rw [(hn c' hr).2.1] at hcl
      cases hcl
    · exact mem_append_right _ (hin.held ss' c' claim hc hcl)
  · intro ss' c' hc
    obtain ⟨-, hr⟩ | ⟨-, hc⟩ := update_eq_iff.mp hc
    · exact (hn c' hr).2.2.1
    · exact hin.moves ss' c' hc
  · intro tk hm
    obtain hs | ⟨claim, hs, hcl⟩ := hgrants
    · rw [hs] at hm
      exact hin.asked tk hm
    · rw [hs, map_cons, mem_cons] at hm
      obtain rfl | hm := hm
      · exact (hin.pending ss call _ hp hcl).1
      · exact hin.asked tk hm
  · obtain hs | ⟨claim, hs, hcl⟩ := hgrants
    · rw [hs]
      exact hin.once
    · rw [hs, map_cons, nodup_cons]
      exact ⟨(hin.pending ss call _ hp hcl).2, hin.once⟩

/-! ## Every run -/

/-- What is true of every reachable state. -/
structure FiringInv (s : ScheduledSystem) : Prop where
  calls : CallsInv s
  rows : RowsInv s.table s.log

/-- **One step** keeps the invariant. -/
theorem FiringInv.step (hi : FiringInv s) (hs : ScheduledStep duplicateKey s event t) : FiringInv t := by
  cases hs with
  | called cm i a => exact ⟨hi.calls.called cm a, hi.rows⟩
  | @ran ss call f p =>
    refine ⟨hi.calls.ran f p, hi.rows.fired hi.calls.once (call.fired f) ?_ ?_⟩
    · intro d claim he hu
      obtain ⟨c', rfl, -⟩ | ⟨c', rfl, hc⟩ | ⟨c', nra, rfl, hc, -⟩ :=
        effect_eq he
      · cases hu
      · cases hu
        exact hi.calls.held ss call claim p hc
      · cases hu
        exact hi.calls.held ss call claim p hc
    · intro claim nra he
      obtain ⟨c', hd, -⟩ | ⟨c', hd, -⟩ | ⟨c', nra', hd, -, hm⟩ :=
        effect_eq he
      · cases hd
      · cases hd
      · cases hd
        exact hm (hi.calls.moves ss call p)

lemma FiringInv.of_initial (h : s.Initial) : FiringInv s := by
  obtain ⟨ht, hcl, ha, hl⟩ := h
  have hnone : ∀ ss call, s.calls ss ≠ some call := by
    intro ss call hc
    rw [hcl ss] at hc
    cases hc
  have hempty : ∀ taskId model, s.table taskId ≠ some model := by
    intro taskId model hr
    rw [ht taskId] at hr
    cases hr
  constructor
  · refine ⟨?_, ?_, ?_, fun ss call hc => absurd hc (hnone ss call), ?_, ?_⟩
    · exact fun ss call _ hc => absurd hc (hnone ss call)
    · exact fun i j call _ _ hc => absurd hc (hnone i call)
    · exact fun ss call _ hc => absurd hc (hnone ss call)
    · rw [hl]
      exact nofun
    · rw [hl]
      exact nodup_nil
  · rw [hl]
    refine ⟨fun taskId model _ hr => absurd hr (hempty taskId model), nofun, nodup_nil, ?_⟩
    intro l effect e claim hs
    exact absurd hs.symm (append_ne_nil_of_right_ne_nil _ (cons_ne_nil _ _))

/-- What an effect does to the row of its task, where it happens: a claim is granted where the firing is due
and no unexpired claim is in the row, and a completion moves the task on. -/
def FiringEffect.Done (table table' : ScheduledTaskTable) : FiringEffect → Prop
  | .granted claim => ∃ model, table claim.taskId = some model ∧ model.nextRunAt = claim.scheduledAt ∧
      model.nextRunAt ≤ claim.claimedAt ∧ Unclaimed model claim.claimedAt
  | .renewed _ => True
  | .completed claim _ => ∃ model model', table claim.taskId = some model ∧
      table' claim.taskId = some model' ∧ model.nextRunAt < model'.nextRunAt

lemma FiringInv.done (hi : FiringInv s) (hs : ScheduledStep duplicateKey s event t)
    (hl : t.log = effect :: s.log) : effect.Done s.table t.table := by
  cases hs with
  | called cm i a => exact absurd hl.symm (cons_ne_self _ _)
  | @ran ss call f p =>
    have heff : call.effect s.table f = some effect := by
      cases heff : call.effect s.table f with
      | none =>
        rw [heff] at hl
        exact absurd hl.symm (cons_ne_self _ _)
      | some e' =>
        rw [heff] at hl
        cases hl
        rfl
    have hfired := @ScheduledCall.fired duplicateKey s.table call f
    rw [heff] at hfired
    generalize (call.run duplicateKey s.table f).1 = table' at hfired ⊢
    cases hfired with
    | granted row sc due u k c => exact ⟨_, row, sc, due, u⟩
    | renewed row c sm => trivial
    | @completed claim model model' nra row c m u =>
      refine ⟨model, model', row, update_self .., ?_⟩
      obtain ⟨cl', hd, -⟩ | ⟨cl', hd, -⟩ | ⟨cl', nra', hd, hc, hm⟩ :=
        effect_eq heff
      · cases hd
      · cases hd
      · cases hd
        have hheld := hi.calls.held ss call claim p hc
        have hscheduled := (hi.rows.of_currentFor hi.calls.once hheld row c).2
        have hmoved := hm (hi.calls.moves ss call p)
        omega

/-- **Scheduled task claim fence.**  Whatever statements of any runtimes come in whatever order, as long as the
instants at which one owner claims a task increase: no firing of a task is completed twice; a claim that is
renewed or completed is the last one that was granted for its task; a claim that a row is current for is of
the firing that the row is at; a claim is granted only where the firing is due and no unexpired claim is in
the row; and every completion moves its task on. -/
theorem scheduledTask_fenced (h : Reachable ScheduledSystem.Initial (ScheduledStep duplicateKey) s) :
    (firings s.log).Nodup ∧ Fencing s.log ∧
    (∀ claim model, .granted claim ∈ s.log → s.table claim.taskId = some model →
      currentFor claim model = true → model.nextRunAt = claim.scheduledAt) ∧
    ∀ event t effect, ScheduledStep duplicateKey s event t → t.log = effect :: s.log →
      effect.Done s.table t.table := by
  have hi : FiringInv s :=
    h.induction (fun _ => .of_initial) fun _ _ _ _ hi hs => hi.step hs
  refine ⟨hi.rows.once, hi.rows.fencing, ?_, ?_⟩
  · intro claim model hg hr hc
    exact (hi.rows.of_currentFor hi.calls.once hg hr hc).2
  · intro event t effect hs hl
    exact hi.done hs hl

/-- A task whose first firing is claimed and completed. -/
theorem scheduledTask_fenced_once :
    let claim : ScheduledTaskClaim := ⟨"n:t".toList, ['n'], ['t'], ['a'], 0, 5, 35⟩
    ∃ s : ScheduledSystem, s.log = [.completed claim 60, .granted claim] ∧ (firings s.log).Nodup ∧
      Fencing s.log ∧
      (∀ claim model, .granted claim ∈ s.log → s.table claim.taskId = some model →
        currentFor claim model = true → model.nextRunAt = claim.scheduledAt) ∧
      ∀ event t effect, ScheduledStep (fun _ => ⟨[], none⟩) s event t → t.log = effect :: s.log →
        effect.Done s.table t.table := by
  intro claim
  let start : ScheduledSystem := ⟨fun _ => none, fun _ => none, [], []⟩
  have hrun : Run (ScheduledStep fun _ => ⟨[], none⟩) start
      [.called 0 (.ensureTask ⟨['n'], ['t'], ['d'], 0⟩), .ran 0 .answered,
        .called 1 (.claimDue ⟨['n'], ['t'], ['a'], 5, 30⟩), .ran 1 .answered, .ran 1 .answered,
        .called 1 (.completeClaim ⟨claim, 40, 60⟩), .ran 1 .answered] _ :=
    .cons (.called _ rfl trivial) <| .cons (.ran _ rfl) <| .cons (.called _ rfl nofun) <|
      .cons (.ran _ rfl) <| .cons (.ran _ rfl) <| .cons (.called _ rfl (.head _)) <| .cons (.ran _ rfl) <|
      .nil _
  exact ⟨_, rfl, scheduledTask_fenced ⟨start, _, ⟨fun _ => rfl, fun _ => rfl, rfl, rfl⟩, hrun⟩⟩

end AsterForge.Db
