import AsterForge.Library.Runs
import Mathlib.Algebra.Order.Ring.Nat

/-!
# Rebuilding a Bloom filter

Keys inserted while a rebuild is going on reach the new filter through a buffer, which its commit takes.
Whoever holds the lock of the buffer may still have to write the filter, whose lock is the inner one, so
a step is one locked section and `held` says what its holder does next.

* `SessionInv` — the buffer is there exactly while one session is.
* `Kept` — a key is in the filter, and will be in the one that replaces it.
* **`bloom_rebuild`** — no key is lost, unless a filter is cleared on purpose.
-/

namespace AsterForge.Cache

open Library List Option

/-- What the filter library does. -/
structure Bloom (Filter Key Rate : Type) where
  newForFpRate : ℕ → Rate → Except String Filter
  set : Filter → Key → Filter
  check : Filter → Key → Bool

structure BloomConfig (Rate : Type) where
  expectedItems : ℕ
  falsePositiveRate : Rate

inductive BloomError
  | invalidConfiguration (reason : String)
  | rebuildInProgress

def reservedCapacity (count : ℕ) : ℕ :=
  let reserve :=
    if count < 5000 then count / 2
    else if count < 100000 then count / 5
    else min (count / 10) 1000000
  min (count + max reserve 1000) (2 ^ 64 - 1)

structure BloomRebuild (Filter : Type) where
  id : ℕ
  replacement : Option Filter
  loaded : ℕ

/-- What is left to do for the holder of the buffer's lock. -/
inductive Held (Filter Key : Type)
  | pushing (key : Key)
  | clearing (replacement : Filter)
  | committing (id : ℕ) (replacement : Filter) (count : ℕ)

structure BloomFilter (Filter Key : Type) where
  inner : Filter
  rebuildBuffer : Option (List Key)
  held : Option (Held Filter Key)
  sessions : List (BloomRebuild Filter)
  nextSession : ℕ

inductive BloomEvent (Key : Type)
  | inserted (keys : List Key)
  | cleared
  | started (id : ℕ)
  | fed (id : ℕ) (keys : List Key)
  | committed (id count : ℕ)
  | rejected (error : BloomError)
  | silent

variable {Filter Key Rate : Type} (bloom : Bloom Filter Key Rate)

def buildFilter (config : BloomConfig Rate) : Except BloomError Filter :=
  (bloom.newForFpRate (reservedCapacity config.expectedItems) config.falsePositiveRate).mapError
    .invalidConfiguration

def Bloom.setAll (filter : Filter) (keys : List Key) : Filter := keys.foldl bloom.set filter

def BloomFilter.new (filter : Filter) : BloomFilter Filter Key := ⟨filter, none, none, [], 0⟩

def BloomRebuild.insertMany (session : BloomRebuild Filter) (keys : List Key) : BloomRebuild Filter :=
  match session.replacement with
  | none => session
  | some replacement => { session with
      replacement := some (bloom.setAll replacement keys)
      loaded := min (session.loaded + keys.length) (2 ^ 64 - 1) }

inductive BloomStep : BloomFilter Filter Key → BloomEvent Key → BloomFilter Filter Key → Prop
  /-- `insert` sets the key and has the buffer's lock until `push`. -/
  | insert {s} (key : Key) : s.held = none →
      BloomStep s (.inserted [key]) { s with inner := bloom.set s.inner key, held := some (.pushing key) }
  | push {s} {key : Key} : s.held = some (.pushing key) →
      BloomStep s .silent { s with rebuildBuffer := s.rebuildBuffer.map (· ++ [key]), held := none }
  /-- `insert_many` has both locks throughout. -/
  | insertMany {s} (keys : List Key) : s.held = none →
      BloomStep s (.inserted keys) { s with
        inner := bloom.setAll s.inner keys, rebuildBuffer := s.rebuildBuffer.map (· ++ keys) }
  /-- `clear` or `start_rebuild`: the sizing is refused before any lock is taken. -/
  | refused {s} {config : BloomConfig Rate} {error : BloomError} :
      buildFilter bloom config = .error error → BloomStep s (.rejected error) s
  | busy {s} : s.held = none → s.rebuildBuffer.isSome = true → BloomStep s (.rejected .rebuildInProgress) s
  | clear {s} {config : BloomConfig Rate} {replacement : Filter} :
      buildFilter bloom config = .ok replacement → s.held = none → s.rebuildBuffer = none →
      BloomStep s .silent { s with held := some (.clearing replacement) }
  | cleared {s} {replacement : Filter} : s.held = some (.clearing replacement) →
      BloomStep s .cleared { s with inner := replacement, held := none }
  | startRebuild {s} {config : BloomConfig Rate} {replacement : Filter} :
      buildFilter bloom config = .ok replacement → s.held = none → s.rebuildBuffer = none →
      BloomStep s (.started s.nextSession) { s with
        rebuildBuffer := some []
        sessions := s.sessions ++ [⟨s.nextSession, some replacement, 0⟩]
        nextSession := s.nextSession + 1 }
  | feed {s} {index : ℕ} {session} (keys : List Key) : s.sessions[index]? = some session →
      BloomStep s (.fed session.id keys) { s with
        sessions := s.sessions.set index (session.insertMany bloom keys) }
  /-- `commit` takes the buffer and has its lock until the filter is replaced. -/
  | commit {s} {index : ℕ} {session} {replacement : Filter} : s.sessions[index]? = some session →
      session.replacement = some replacement → s.held = none →
      BloomStep s .silent { s with
        rebuildBuffer := none
        held := some (.committing session.id (bloom.setAll replacement (s.rebuildBuffer.getD []))
          (min (session.loaded + (s.rebuildBuffer.getD []).length) (2 ^ 64 - 1)))
        sessions := s.sessions.eraseIdx index }
  | committed {s} {id count : ℕ} {replacement : Filter} : s.held = some (.committing id replacement count) →
      BloomStep s (.committed id count) { s with inner := replacement, held := none }
  /-- A session is dropped; one whose replacement is taken leaves the buffer alone. -/
  | drop {s} {index : ℕ} {session} : s.sessions[index]? = some session →
      (session.replacement.isSome = true → s.held = none) →
      BloomStep s .silent { s with
        rebuildBuffer := if session.replacement.isSome then none else s.rebuildBuffer
        sessions := s.sessions.eraseIdx index }

/-- What is assumed of the filter library: no false negatives. -/
structure Bloom.NoFalseNegatives : Prop where
  set_self : ∀ filter key, bloom.check (bloom.set filter key) key = true
  set_mono : ∀ {filter key} other, bloom.check filter key = true →
    bloom.check (bloom.set filter other) key = true

/-! ## Sessions -/

/-- The buffer is there exactly while one session is. -/
structure SessionInv (s : BloomFilter Filter Key) : Prop where
  buffer : s.sessions.length = if s.rebuildBuffer.isSome then 1 else 0
  replacement : ∀ session ∈ s.sessions, session.replacement.isSome = true
  fresh : ∀ session ∈ s.sessions, session.id < s.nextSession
  committing : ∀ {id replacement count},
    s.held = some (.committing id replacement count) → s.rebuildBuffer = none

variable {bloom} {s t : BloomFilter Filter Key} {e : BloomEvent Key} {key : Key}

lemma SessionInv.new (f : Filter) : SessionInv (.new f : BloomFilter Filter Key) where
  buffer := rfl
  replacement := by simp [BloomFilter.new]
  fresh := by simp [BloomFilter.new]
  committing := nofun

lemma SessionInv.none (h : SessionInv s) (hb : s.rebuildBuffer = none) : s.sessions = [] := by
  have hlen := h.buffer
  rw [hb] at hlen
  exact length_eq_zero_iff.mp hlen

lemma SessionInv.alone (h : SessionInv s) {i : ℕ} {ss : BloomRebuild Filter} (hs : s.sessions[i]? = some ss) :
    i = 0 ∧ s.sessions = [ss] ∧ ∃ b, s.rebuildBuffer = some b := by
  cases hbuffer : s.rebuildBuffer with
  | none =>
    rw [h.none hbuffer] at hs
    cases hs
  | some b =>
    have hlen := h.buffer
    rw [hbuffer] at hlen
    obtain ⟨only, ho⟩ := length_eq_one_iff.mp hlen
    rw [ho, getElem?_singleton] at hs
    obtain ⟨rfl, rfl⟩ := ite_some_none_eq_some.mp hs
    exact ⟨rfl, ho, b, rfl⟩

lemma SessionInv.step (h : SessionInv s) (hst : BloomStep bloom s e t) : SessionInv t := by
  cases hst with
  | insert other hh | cleared hh | committed hh => exact ⟨h.buffer, h.replacement, h.fresh, nofun⟩
  | clear hc hh hb => exact ⟨h.buffer, h.replacement, h.fresh, nofun⟩
  | push hh | insertMany k hh =>
    exact ⟨by simpa using h.buffer, h.replacement, h.fresh, by simp_all⟩
  | refused hc | busy hh hb => exact h
  | startRebuild hc hh hb =>
    rw [h.none hb]
    exact ⟨rfl, by simp, by simp, by simp [hh]⟩
  | @feed i ss k hs =>
    obtain ⟨rfl, ha, -⟩ := h.alone hs
    have hmem : ss ∈ s.sessions := mem_of_getElem? hs
    obtain ⟨r, hr⟩ := isSome_iff_exists.mp (h.replacement ss hmem)
    refine ⟨by simpa using h.buffer, ?_, ?_, h.committing⟩
    · simp [ha, BloomRebuild.insertMany, hr]
    · simpa [ha, BloomRebuild.insertMany, hr] using h.fresh ss hmem
  | commit hs hr hh =>
    obtain ⟨rfl, ha, -⟩ := h.alone hs
    exact ⟨by simp [ha], by simp [ha], by simp [ha], fun _ => rfl⟩
  | drop hs hh =>
    obtain ⟨rfl, ha, -⟩ := h.alone hs
    have hr := h.replacement _ (mem_of_getElem? hs)
    exact ⟨by simp [ha, hr], by simp [ha], by simp [ha], fun _ => if_pos hr⟩

/-! ## Keys -/

variable (bloom key) in
/-- A session that commits will have the key. -/
def Carries (s : BloomFilter Filter Key) (session : BloomRebuild Filter) : Prop :=
  (∃ replacement, session.replacement = some replacement ∧ bloom.check replacement key = true) ∨
    s.held = some (.pushing key) ∨ ∃ buffer, s.rebuildBuffer = some buffer ∧ key ∈ buffer

variable (bloom key) in
/-- The key is in whatever the sessions in `P` put in place of the filter. -/
structure Kept (P : ℕ → Prop) (s : BloomFilter Filter Key) : Prop where
  session : ∀ session ∈ s.sessions, P session.id → Carries bloom key s session
  committing : ∀ {id replacement count}, s.held = some (.committing id replacement count) → P id →
    bloom.check replacement key = true

section

variable (hbl : bloom.NoFalseNegatives) {P : ℕ → Prop}
include hbl

lemma check_setAll_of_check {f : Filter} (h : bloom.check f key = true) (k : List Key) :
    bloom.check (bloom.setAll f k) key = true := by
  induction k generalizing f with
  | nil => exact h
  | cons o k ih => exact ih (hbl.set_mono o h)

lemma check_setAll_of_mem {k : List Key} (h : key ∈ k) (f : Filter) :
    bloom.check (bloom.setAll f k) key = true := by
  induction k generalizing f with
  | nil => exact absurd h not_mem_nil
  | cons o k ih =>
    rcases mem_cons.mp h with rfl | h
    · exact check_setAll_of_check hbl (hbl.set_self f key) k
    · exact ih h _

/-- A session that starts has none of the keys from before, so it must not be in `P`. -/
lemma Kept.step (h : Kept bloom key P s) (hi : SessionInv s) (hsp : BloomStep bloom s e t)
    (hst : ∀ id, e = .started id → ¬ P id) : Kept bloom key P t := by
  cases hsp with
  | insert other hh | clear hcn hh hb =>
    refine ⟨fun ss hs hP => (h.session ss hs hP).imp_right fun hk => ?_, nofun⟩
    rw [hh] at hk
    exact .inr (hk.resolve_left nofun)
  | cleared hh | committed hh =>
    refine ⟨fun ss hs hP => (h.session ss hs hP).imp_right fun hk => ?_, nofun⟩
    rw [hh] at hk
    exact .inr (hk.resolve_left nofun)
  | @push p hh =>
    refine ⟨fun ss hs hP => (h.session ss hs hP).imp_right fun hk => .inr ?_, nofun⟩
    obtain ⟨i, hin⟩ := mem_iff_getElem?.mp hs
    obtain ⟨-, -, b, hb⟩ := hi.alone hin
    rw [hh, hb] at hk
    refine ⟨b ++ [p], by simp [hb], ?_⟩
    rcases hk with hp | ⟨_, hsm, hm⟩
    · cases hp
      exact mem_append_right _ mem_cons_self
    · cases hsm
      exact mem_append_left _ hm
  | insertMany k hh =>
    refine ⟨fun ss hs hP => (h.session ss hs hP).imp_right ?_, h.committing⟩
    rintro (hp | ⟨b, hb, hm⟩)
    · exact .inl hp
    · exact .inr ⟨b ++ k, by simp [hb], mem_append_left _ hm⟩
  | refused hcn | busy hh hb => exact h
  | startRebuild hcn hh hb =>
    refine ⟨fun ss hs hP => absurd hP ?_, h.committing⟩
    rw [hi.none hb] at hs
    rw [mem_singleton.mp hs]
    exact hst _ rfl
  | @feed i ss k hs =>
    obtain ⟨rfl, ha, -⟩ := hi.alone hs
    have hm : ss ∈ s.sessions := mem_of_getElem? hs
    obtain ⟨old, hl⟩ := isSome_iff_exists.mp (hi.replacement ss hm)
    refine ⟨?_, h.committing⟩
    simp only [ha, set_cons_zero, mem_singleton, forall_eq, BloomRebuild.insertMany, hl]
    refine fun hP => (h.session ss hm hP).imp_left ?_
    rintro ⟨_, hsm, hc⟩
    cases hl.symm.trans hsm
    exact ⟨_, rfl, check_setAll_of_check hbl hc k⟩
  | @commit i ss r hs hr hh =>
    obtain ⟨rfl, ha, -⟩ := hi.alone hs
    refine ⟨by simp [ha], fun hcm hP => ?_⟩
    cases hcm
    rcases h.session ss (mem_of_getElem? hs) hP with ⟨_, hsm, hc⟩ | hp | hb
    · cases hr.symm.trans hsm
      exact check_setAll_of_check hbl hc _
    · cases hh.symm.trans hp
    · obtain ⟨b, hb, hm⟩ := hb
      rw [hb]
      exact check_setAll_of_mem hbl hm _
  | drop hs hh =>
    obtain ⟨rfl, ha, -⟩ := hi.alone hs
    exact ⟨by simp [ha], h.committing⟩

lemma Kept.check_step (h : Kept bloom key P s) (hs : BloomStep bloom s e t)
    (hcl : e ≠ .cleared) (hcm : ∀ id c, e = .committed id c → P id)
    (hc : bloom.check s.inner key = true) : bloom.check t.inner key = true := by
  cases hs with
  | insert o hh => exact hbl.set_mono o hc
  | insertMany k hh => exact check_setAll_of_check hbl hc k
  | cleared hh => exact absurd rfl hcl
  | committed hh => exact h.committing hh (hcm _ _ rfl)
  | _ => exact hc

variable {ev : List (BloomEvent Key)}

lemma Kept.run (h : Kept bloom key P s) (hi : SessionInv s) (hr : Run (BloomStep bloom) s ev t)
    (hs : ∀ id, .started id ∈ ev → ¬ P id) :
    Kept bloom key P t ∧ (.cleared ∉ ev → (∀ id c, .committed id c ∈ ev → P id) →
      bloom.check s.inner key = true → bloom.check t.inner key = true) := by
  induction hr with
  | nil s => exact ⟨h, fun _ _ hch => hch⟩
  | cons hst _ ih =>
    simp only [mem_cons, not_or, or_imp, forall_and] at hs ⊢
    obtain ⟨hl, hch⟩ := ih (h.step hbl hi hst fun id heq => hs.1 id heq.symm) (hi.step hst) hs.2
    refine ⟨hl, fun hcl hc hf => hch hcl.2 hc.2 ?_⟩
    exact h.check_step hbl hst (Ne.symm hcl.1) (fun id c heq => hc.1 id c heq.symm) hf

end

/-- A session that is known does not start again. -/
lemma notMem_started {events : List (BloomEvent Key)} (hr : Run (BloomStep bloom) s events t) {id : ℕ}
    (hid : id < s.nextSession) : .started id ∉ events := by
  induction hr with
  | nil s => exact not_mem_nil
  | cons hs _ ih =>
    rw [mem_cons, not_or]
    cases hs with
    | startRebuild hc hh hb =>
      exact ⟨fun heq => Nat.ne_of_lt hid (BloomEvent.started.inj heq), ih (Nat.lt_succ_of_lt hid)⟩
    | _ => exact ⟨nofun, ih hid⟩

/-- The states that a filter goes through. -/
def BloomFilter.ReachableState (bloom : Bloom Filter Key Rate) (s : BloomFilter Filter Key) : Prop :=
  Reachable (fun s => ∃ config filter, buildFilter bloom config = .ok filter ∧ s = .new filter)
    (BloomStep bloom) s

/-- **No key is lost.**  A key that was inserted, or fed to a rebuild that is committed, is in the filter
until a filter is cleared or replaced by a rebuild that started later; a session has the buffer; and what
is refused changes nothing. -/
theorem bloom_rebuild (hbloom : bloom.NoFalseNegatives) {s t : BloomFilter Filter Key}
    (h : s.ReachableState bloom) :
    (∀ {inserted keys after} {key : Key}, BloomStep bloom s (.inserted keys) inserted → key ∈ keys →
      Run (BloomStep bloom) inserted after t → .cleared ∉ after →
      (∀ id count, .started id ∈ after → .committed id count ∉ after) → bloom.check t.inner key = true) ∧
    (∀ {fed ready committed id count keys middle after} {key : Key},
      BloomStep bloom s (.fed id keys) fed → key ∈ keys →
      Run (BloomStep bloom) fed middle ready → BloomStep bloom ready (.committed id count) committed →
      Run (BloomStep bloom) committed after t → .cleared ∉ after →
      (∀ id count, .committed id count ∉ after) → bloom.check t.inner key = true) ∧
    (∀ {events} {key : Key}, Run (BloomStep bloom) s events t → .cleared ∉ events →
      (∀ id count, .committed id count ∉ events) → bloom.check s.inner key = true →
      bloom.check t.inner key = true) ∧
    (s.sessions.length = if s.rebuildBuffer.isSome then 1 else 0) ∧
    ∀ {error}, BloomStep bloom s (.rejected error) t → t = s := by
  have hi : SessionInv s := h.induction (fun _ ⟨_, f, _, heq⟩ => heq ▸ SessionInv.new f)
    (fun _ _ _ _ hi hsp => hi.step hsp)
  -- without a commit there is nothing to carry
  have hstays : ∀ {s events} {key : Key}, SessionInv s → Run (BloomStep bloom) s events t →
      .cleared ∉ events → (∀ id count, .committed id count ∉ events) →
      bloom.check s.inner key = true → bloom.check t.inner key = true := by
    intro s events key hi hr hcl hc
    have hnone : Kept bloom key (fun _ => False) s := ⟨fun _ _ => False.elim, fun _ => False.elim⟩
    exact (hnone.run hbloom hi hr fun _ _ => id).2 hcl fun id count => hc id count
  refine ⟨?_, ?_, hstays hi, hi.buffer, ?_⟩
  · intro inserted keys after key hsp hk hr hcl hc
    have hkept : Kept bloom key (.started · ∉ after) inserted ∧ bloom.check inserted.inner key = true := by
      cases hsp with
      | insert o hh =>
        cases mem_singleton.mp hk
        exact ⟨⟨fun _ _ _ => .inr (.inl rfl), nofun⟩, hbloom.set_self _ _⟩
      | insertMany keys hh =>
        refine ⟨⟨fun ss hss _ => ?_, by simp [hh]⟩, check_setAll_of_mem hbloom hk _⟩
        obtain ⟨i, hin⟩ := mem_iff_getElem?.mp hss
        obtain ⟨-, -, b, hb⟩ := hi.alone hin
        exact .inr (.inr ⟨b ++ keys, by simp [hb], mem_append_right _ hk⟩)
    refine (hkept.1.run hbloom (hi.step hsp) hr fun id hm => not_not.mpr hm).2 hcl ?_ hkept.2
    exact fun id count hm hsr => hc id count hsr hm
  · intro fed ready committed id count keys middle after key hsp hk hmd hcm hr hcl hno
    have hfed : Kept bloom key (· = id) fed ∧ id < fed.nextSession := by
      cases hsp with
      | @feed i ss keys hss =>
        obtain ⟨rfl, ha, b, hb⟩ := hi.alone hss
        have hm : ss ∈ s.sessions := mem_of_getElem? hss
        obtain ⟨old, hl⟩ := isSome_iff_exists.mp (hi.replacement ss hm)
        refine ⟨⟨?_, fun hh => ?_⟩, hi.fresh ss hm⟩
        · simp only [ha, set_cons_zero, mem_singleton, forall_eq, BloomRebuild.insertMany, hl]
          exact fun _ => .inl ⟨_, rfl, check_setAll_of_mem hbloom hk old⟩
        · cases hb.symm.trans (hi.committing hh)
    have hready := (hfed.1.run hbloom (hi.step hsp) hmd
      fun o hm heq => notMem_started hmd hfed.2 (heq ▸ hm)).1
    have hinvReady : SessionInv ready := hmd.invariant (fun _ _ _ hs hst => hs.step hst) (hi.step hsp)
    refine hstays (hinvReady.step hcm) hr hcl hno ?_
    cases hcm with
    | committed hh => exact hready.committing hh rfl
  · intro error hsp
    cases hsp <;> rfl

/-- A filter that has no false positives either. -/
def listed : Bloom (List ℕ) ℕ Unit :=
  ⟨fun _ _ => .ok [], fun filter key => key :: filter, fun filter key => filter.contains key⟩

def listedConfig : BloomConfig Unit := ⟨100, ()⟩

lemma listed_noFalseNegatives : listed.NoFalseNegatives where
  set_self := by simp [listed]
  set_mono := by simp_all [listed]

def rebuilding : BloomFilter (List ℕ) ℕ := ⟨[], some [], none, [⟨0, some [], 0⟩], 1⟩

lemma rebuilding_reachable : rebuilding.ReachableState listed :=
  .tail (.of_init ⟨listedConfig, [], rfl, rfl⟩) (@BloomStep.startRebuild _ _ _ listed (.new []) listedConfig []
    rfl rfl rfl)

/-- A key that comes while a rebuild is going on is in the rebuilt filter. -/
theorem bloom_rebuild_concurrent :
    ∃ t : BloomFilter (List ℕ) ℕ, t.sessions = [] ∧ listed.check t.inner 7 = true := by
  have hpush := @BloomStep.push _ _ _ listed { rebuilding with inner := [7], held := some (.pushing 7) } 7 rfl
  have hcommit := @BloomStep.commit _ _ _ listed
    { rebuilding with inner := [7], rebuildBuffer := some [7] } 0 _ _ rfl rfl rfl
  exact ⟨_, rfl, (bloom_rebuild listed_noFalseNegatives rebuilding_reachable).1
    (@BloomStep.insert _ _ _ listed rebuilding 7 rfl) mem_cons_self
    (.cons hpush (.cons hcommit (.cons (.committed rfl) (.nil _)))) (by simp) (by simp)⟩

/-- The filter is cleared after the rebuild. -/
theorem bloom_rebuild_counterexample : ¬ ∀ {s fed ready committed t : BloomFilter (List ℕ) ℕ}
    {id count keys middle after} {key : ℕ}, s.ReachableState listed →
    BloomStep listed s (.fed id keys) fed → key ∈ keys → Run (BloomStep listed) fed middle ready →
    BloomStep listed ready (.committed id count) committed → Run (BloomStep listed) committed after t →
    (∀ id count, .committed id count ∉ after) → listed.check t.inner key = true := by
  intro h
  have hfeed := @BloomStep.feed _ _ _ listed rebuilding 0 _ [7] rfl
  have hcommit := @BloomStep.commit _ _ _ listed
    { rebuilding with sessions := [⟨0, some [7], 1⟩] } 0 _ _ rfl rfl rfl
  have hclear := @BloomStep.clear _ _ _ listed ⟨[7], none, none, [], 1⟩ listedConfig [] rfl rfl rfl
  have hcheck := h rebuilding_reachable hfeed mem_cons_self (.cons hcommit (.nil _)) (.committed rfl)
    (.cons hclear (.cons (.cleared rfl) (.nil _))) (by simp)
  cases hcheck

end AsterForge.Cache
