import AsterForge.Db.ScheduledIsolation
import AsterForge.Tasks.Schedule
import Mathlib.Logic.Equiv.Nat

/-!
# Dedupe keys of scheduled firings

A firing is enqueued once: its key is a unique column.  The key has the namespace, the name and the instant of
the firing, with colons between them, and the instant in whole seconds.

* **`dedupe_keys_distinct_iff`** — which firings have different keys.
-/

namespace AsterForge.Tasks

open Library Db List

/-! ## Keys -/

/-- A dedupe key that may be stored. -/
structure TaskDedupeKey where
  value : Text
  nonEmpty : trim value ≠ []
  le_maxLen : byteLength value ≤ 191

/-- The error is the message of an invalid value. -/
def TaskDedupeKey.new (value : Text) : Except Text TaskDedupeKey :=
  if hempty : trim value = [] then .error "task dedupe key must not be empty".toList
  else if hlen : byteLength value ≤ 191 then .ok ⟨value, hempty, hlen⟩
  else .error "task dedupe key must be at most 191 bytes".toList

structure ScheduledFiring where
  pair : TaskPair
  scheduledAt : ℤ

section

variable (rfc3339 : ℤ → Text)

def dedupeText (firing : ScheduledFiring) : Text :=
  ['s', 'c', 'h', 'e', 'd', 'u', 'l', 'e', ':'] ++ (pairKey firing.pair ++ ':' :: rfc3339 firing.scheduledAt)

def scheduledTaskDedupeKey (firing : ScheduledFiring) : Except Text TaskDedupeKey :=
  TaskDedupeKey.new (dedupeText rfc3339 firing)

/-- The format of RFC 3339 with whole seconds: an instant is written without the fraction of its second, and
the time of the day with a colon before the minutes and one before the seconds. -/
structure WholeSeconds : Prop where
  eq_iff : ∀ first last, rfc3339 first = rfc3339 last ↔ first / second = last / second
  colons : ∀ instant, (rfc3339 instant).count ':' = 2

end

variable {rfc3339 : ℤ → Text} {firing other : ScheduledFiring} {key otherKey : TaskDedupeKey}

lemma dedupeKey_eq_ok (h : scheduledTaskDedupeKey rfc3339 firing = .ok key) :
    key.value = dedupeText rfc3339 firing := by
  unfold scheduledTaskDedupeKey TaskDedupeKey.new at h
  split_ifs at h
  cases h
  rfl

/-- Texts behind which equally many separators follow are cut at the same one. -/
lemma append_separator_inj {c : Char} {left left' right right' : Text} (hc : right.count c = right'.count c)
    (h : left ++ c :: right = left' ++ c :: right') : left = left' ∧ right = right' := by
  -- what one of them has in between would have one separator too many
  have hnone : ∀ {m r r' : Text}, r.count c = r'.count c → c :: r = m ++ c :: r' → m = [] := by
    intro m r r' hc h
    cases m with
    | nil => rfl
    | cons d m =>
      obtain ⟨-, rfl⟩ := cons.inj h
      rw [append_eq, count_append, count_cons_self] at hc
      omega
  rcases append_eq_append_iff.mp h with ⟨m, hl, hr⟩ | ⟨m, hl, hr⟩
  · obtain rfl := hnone hc hr
    exact ⟨by rw [hl, append_nil], (cons.inj hr).2⟩
  · obtain rfl := hnone hc.symm hr
    exact ⟨by rw [hl, append_nil], (cons.inj hr).2.symm⟩

/-- **Which firings have the same key**: those of the same text of names, in the same second. -/
lemma dedupeText_eq_iff (h : WholeSeconds rfc3339) : dedupeText rfc3339 firing = dedupeText rfc3339 other ↔
    pairKey firing.pair = pairKey other.pair ∧
      firing.scheduledAt / second = other.scheduledAt / second := by
  rw [dedupeText, dedupeText, append_cancel_left_eq, ← h.eq_iff]
  constructor
  · exact append_separator_inj (by rw [h.colons, h.colons])
  · rintro ⟨hp, hi⟩
    rw [hp, hi]

lemma key_ne_iff (h : WholeSeconds rfc3339) (hk : scheduledTaskDedupeKey rfc3339 firing = .ok key)
    (ho : scheduledTaskDedupeKey rfc3339 other = .ok otherKey) :
    key ≠ otherKey ↔ pairKey firing.pair ≠ pairKey other.pair ∨
      firing.scheduledAt / second ≠ other.scheduledAt / second := by
  have hvalue : key = otherKey ↔ key.value = otherKey.value := by
    cases key
    cases otherKey
    exact TaskDedupeKey.mk.injEq .. ▸ Iff.rfl
  rw [ne_eq, hvalue, dedupeKey_eq_ok hk, dedupeKey_eq_ok ho, dedupeText_eq_iff h, not_and_or]

lemma nextScheduledRunAt_eq_some {finishedAt next : ℤ} {interval : ℕ}
    (h : nextScheduledRunAt finishedAt interval = some next) : next = finishedAt + interval := by
  obtain ⟨signed, hs, hn⟩ := Option.bind_eq_some_iff.mp h
  unfold checkedSigned at hs
  unfold checkedAddSigned at hn
  split_ifs at hs hn
  cases hs
  cases hn
  rfl

/-- **Two firings have two keys** exactly if the texts of their names or the seconds of their instants differ.
Of two firings of one task, one after the other, the second decides, and an interval of a second is enough. -/
theorem dedupe_keys_distinct_iff (h : WholeSeconds rfc3339)
    (hk : scheduledTaskDedupeKey rfc3339 firing = .ok key) :
    (∀ other otherKey, scheduledTaskDedupeKey rfc3339 other = .ok otherKey →
      ((firing ≠ other → key ≠ otherKey) ↔ firing = other ∨ pairKey firing.pair ≠ pairKey other.pair ∨
        firing.scheduledAt / second ≠ other.scheduledAt / second)) ∧
    ∀ finishedAt interval next otherKey, firing.scheduledAt ≤ finishedAt → 0 < interval →
      nextScheduledRunAt finishedAt interval = some next →
      scheduledTaskDedupeKey rfc3339 ⟨firing.pair, next⟩ = .ok otherKey →
      (key ≠ otherKey ↔ firing.scheduledAt / second ≠ next / second) ∧ (second ≤ interval → key ≠ otherKey) := by
  refine ⟨fun other otherKey ho => ?_, fun finishedAt interval next otherKey hf _ hn ho => ?_⟩
  · rw [key_ne_iff h hk ho, ← or_iff_not_imp_left]
  · have hne := key_ne_iff h hk ho
    simp only [ne_eq, not_true_eq_false, false_or] at hne
    refine ⟨hne, fun hi => hne.mpr ?_⟩
    rw [nextScheduledRunAt_eq_some hn]
    unfold second at hi ⊢
    omega

/-! ## Firings in one second -/

/-- The first second as it is written, and marks for how far from it another one is. -/
def markedSecond (instant : ℤ) : Text :=
  ['1', '9', '7', '0', '-', '0', '1', '-', '0', '1', 'T', '0', '0', ':', '0', '0', ':', '0', '0', 'Z'] ++
    replicate (Equiv.intEquivNat (instant / second)) '+'

lemma wholeSeconds_markedSecond : WholeSeconds markedSecond := by
  refine ⟨fun first last => ?_, fun instant => ?_⟩
  · rw [markedSecond, markedSecond, append_cancel_left_eq, replicate_left_inj, Equiv.apply_eq_iff_eq]
  · rw [markedSecond, count_append, count_replicate]
    rfl

def colonAfter : ScheduledFiring := ⟨("a".toList, "b:c".toList), 0⟩

lemma colonAfter_ok : ∃ key, ∀ firing : ScheduledFiring, pairKey firing.pair = pairKey colonAfter.pair →
    firing.scheduledAt / second = 0 → scheduledTaskDedupeKey markedSecond firing = .ok key := by
  have hempty : trim (dedupeText markedSecond colonAfter) ≠ [] := by decide
  have hlen : byteLength (dedupeText markedSecond colonAfter) ≤ 191 := by decide
  refine ⟨⟨_, hempty, hlen⟩, fun firing hp hi => ?_⟩
  rw [scheduledTaskDedupeKey, (dedupeText_eq_iff wholeSeconds_markedSecond).mpr ⟨hp, hi⟩, TaskDedupeKey.new,
    dif_neg hempty, dif_pos hlen]

/-- Of a task every half a second, two firings have one key. -/
theorem dedupe_keys_distinct_half : ∃ key, scheduledTaskDedupeKey markedSecond colonAfter = .ok key ∧
    (key ≠ key ↔ colonAfter.scheduledAt / second ≠ 500000000 / second) := by
  obtain ⟨key, hk⟩ := colonAfter_ok
  have hnext : nextScheduledRunAt 0 500000000 = some 500000000 := by decide
  exact ⟨key, hk _ rfl rfl, ((dedupe_keys_distinct_iff wholeSeconds_markedSecond (hk colonAfter rfl rfl)).2 0
    500000000 _ key le_rfl (by decide) hnext (hk _ rfl (by decide))).1⟩

/-- A colon in a namespace and in a name. -/
theorem dedupe_keys_counterexample : ¬ ∀ firing other : ScheduledFiring, AcceptedPair firing.pair →
    AcceptedPair other.pair → ∀ key otherKey, scheduledTaskDedupeKey markedSecond firing = .ok key →
    scheduledTaskDedupeKey markedSecond other = .ok otherKey → firing ≠ other → key ≠ otherKey := by
  intro h
  obtain ⟨key, hk⟩ := colonAfter_ok
  refine h ⟨("a:b".toList, "c".toList), 0⟩ colonAfter ?_ ?_ key key (hk _ (by decide) rfl) (hk _ rfl rfl) ?_ rfl
  · exact ⟨⟨"a:b".toList, "c".toList, "d".toList, 0⟩, rfl, by decide⟩
  · exact ⟨⟨"a".toList, "b:c".toList, "d".toList, 0⟩, rfl, by decide⟩
  · intro hsame
    exact absurd (congrArg ScheduledFiring.pair hsame) (by decide)

end AsterForge.Tasks
