import AsterForge.Windows.Error

/-!
# Connection sessions

One active connection has one session: a lifecycle state and the number of accepted callbacks that
somebody still owns, behind one lock.  Every operation is one locked section.  An accepted callback is
owned through its lease, which is released once, by hand or when it is dropped.

* `lifecycleOf` — what the state is for: it is determined by whether closing has begun, whether the
  disconnect was recorded, and the number of live leases.
* **`Follows.beginCallback`**, **`Follows.beginClosing`**, **`Follows.markDisconnected`**,
  **`Follows.releaseInner`** — every operation keeps it there.
-/

namespace AsterForge.Windows

open AsterForge.Core

/-! ## Sessions and leases -/

/-- Lifecycle fence for one active native connection generation. -/
structure WindowsConnectionSession where
  generation : SessionGeneration
  state : SessionState
  activeCallbacks : ℕ

/-- Ownership proof for one callback accepted before the closing fence. -/
structure WindowsCallbackLease where
  released : Bool

def WindowsCallbackLease.live (lease : WindowsCallbackLease) : Bool := !lease.released

namespace WindowsConnectionSession

def new (generation : SessionGeneration) : WindowsConnectionSession := ⟨generation, .accepting, 0⟩

/-- Accepts one callback only while this exact generation is accepting new work. -/
def beginCallback (session : WindowsConnectionSession) (callbackGeneration : SessionGeneration) :
    Except WindowsCloudFilesError (WindowsCallbackLease × WindowsConnectionSession) :=
  if callbackGeneration ≠ session.generation then
    .error (.staleConnectionGeneration session.generation.value callbackGeneration.value)
  else if session.state ≠ .accepting then .error (.connectionNotAccepting session.state)
  else if session.activeCallbacks + 1 ≤ usizeMax then
    .ok (⟨false⟩, { session with activeCallbacks := session.activeCallbacks + 1 })
  else .error .activeCallbackCountOverflow

/-- Moves `accepting` to `closing`; the answer is whether this call did. -/
def beginClosing (session : WindowsConnectionSession) : Bool × WindowsConnectionSession :=
  if session.state = .accepting then (true, { session with state := .closing })
  else (false, session)

/-- Records successful native disconnect and begins draining accepted work. -/
def markDisconnected (session : WindowsConnectionSession) :
    Except WindowsCloudFilesError WindowsConnectionSession :=
  match session.state with
  | .closing =>
    .ok { session with state := if session.activeCallbacks = 0 then .closed else .draining }
  | .draining | .closed => .ok session
  | .accepting => .error (.invalidConnectionTransition .accepting .draining)

end WindowsConnectionSession

def WindowsCallbackLease.releaseInner (lease : WindowsCallbackLease)
    (session : WindowsConnectionSession) : WindowsCallbackLease × WindowsConnectionSession :=
  if lease.released then (lease, session)
  else
    let activeCallbacks := session.activeCallbacks - 1
    (⟨true⟩, { session with
      activeCallbacks
      state :=
        if session.state = .draining ∧ activeCallbacks = 0 then .closed else session.state })

/-! ## What the state is for -/

/-- The place of a state in the order `accepting`, `closing`, `draining`, `closed`. -/
def lifecycleRank : SessionState → ℕ
  | .accepting => 0
  | .closing => 1
  | .draining => 2
  | .closed => 3

def lifecycleOf (closing disconnected : Bool) (live : ℕ) : SessionState :=
  if closing = false then .accepting
  else if disconnected = false then .closing
  else if live = 0 then .closed
  else .draining

/-- A session counts its live leases, is in the state that its history asks for, and is disconnected
only if it was closing before. -/
structure Follows (session : WindowsConnectionSession) (closing disconnected : Bool) (live : ℕ) : Prop where
  active : session.activeCallbacks = live
  state : session.state = lifecycleOf closing disconnected live
  order : disconnected = true → closing = true

namespace Follows

variable {s : WindowsConnectionSession} {c d : Bool} {l : ℕ}

section

variable (h : Follows s c d l)
include h

lemma accepting_iff : s.state = .accepting ↔ c = false := by
  rw [h.state, lifecycleOf]
  cases c
  · simp
  · simp only [Bool.true_eq_false, if_false, iff_false]
    split_ifs <;> decide

lemma closing_iff : s.state = .closing ↔ c = true ∧ d = false := by
  rw [h.state, lifecycleOf]
  cases c <;> cases d <;> simp
  split_ifs <;> decide

lemma draining_iff : s.state = .draining ↔ d = true ∧ l ≠ 0 := by
  have horder := h.order
  rw [h.state, lifecycleOf]
  cases c <;> cases d <;> simp_all

lemma closed_iff : s.state = .closed ↔ d = true ∧ l = 0 := by
  have horder := h.order
  rw [h.state, lifecycleOf]
  cases c <;> cases d <;> simp_all

end

lemma new (g : SessionGeneration) : Follows (.new g) false false 0 :=
  ⟨rfl, rfl, by simp⟩

end Follows

/-! ## What the operations do -/

section

variable {ss s' : WindowsConnectionSession} {cl ds : Bool} {lv : ℕ}
  {cg : SessionGeneration} {ls : WindowsCallbackLease}

lemma beginCallback_eq_ok (hb : ss.beginCallback cg = .ok (ls, s')) :
    cg = ss.generation ∧ ss.state = .accepting ∧ ls = ⟨false⟩ ∧
      s' = { ss with activeCallbacks := ss.activeCallbacks + 1 } := by
  unfold WindowsConnectionSession.beginCallback at hb
  split_ifs at hb with hgen hstate hfits
  cases hb
  exact ⟨not_not.mp hgen, not_not.mp hstate, rfl, rfl⟩

/-- **Accepting a callback** makes one more lease, and only while closing has not begun. -/
theorem Follows.beginCallback (h : Follows ss cl ds lv) (hb : ss.beginCallback cg = .ok (ls, s')) :
    cl = false ∧ ls.live = true ∧ Follows s' cl ds (lv + 1) := by
  obtain ⟨-, hs, rfl, rfl⟩ := beginCallback_eq_ok hb
  have hclos : cl = false := h.accepting_iff.mp hs
  refine ⟨hclos, rfl, ?_, ?_, h.order⟩
  · exact congrArg (· + 1) h.active
  · rw [hs, hclos]
    rfl

/-- **Begin of closing.** -/
theorem Follows.beginClosing (h : Follows ss cl ds lv) : Follows ss.beginClosing.2 true ds lv := by
  unfold WindowsConnectionSession.beginClosing
  split_ifs with hstate
  · have hclos : cl = false := h.accepting_iff.mp hstate
    have hconnected : ds = false := by
      cases hdisc : ds
      · rfl
      · rw [h.order hdisc] at hclos
        cases hclos
    exact ⟨h.active, by rw [hconnected]; rfl, fun _ => rfl⟩
  · have hclos : cl = true := by
      rw [h.accepting_iff, Bool.not_eq_false] at hstate
      exact hstate
    exact hclos ▸ h

/-- **The disconnect is recorded**, which takes that closing has begun. -/
theorem Follows.markDisconnected (h : Follows ss cl ds lv)
    (hm : ss.markDisconnected = .ok s') : Follows s' cl true lv := by
  unfold WindowsConnectionSession.markDisconnected at hm
  split at hm
  case h_1 hstate =>
    have hclos : cl = true := (h.closing_iff.mp hstate).1
    cases hm
    refine ⟨h.active, ?_, fun _ => hclos⟩
    rw [h.active, hclos]
    rfl
  case h_2 hstate =>
    cases hm
    exact (h.draining_iff.mp hstate).1 ▸ h
  case h_3 hstate =>
    cases hm
    exact (h.closed_iff.mp hstate).1 ▸ h
  case h_4 => cases hm

variable (lease : WindowsCallbackLease) (session : WindowsConnectionSession)

open WindowsCallbackLease

@[simp] lemma live_releaseInner : (lease.releaseInner session).1.live = false := by
  unfold releaseInner
  split_ifs with hrel
  · rw [live, hrel]
    rfl
  · rfl

/-- **The release of a lease** takes it off the count, if it was on it, and the last one closes a
session whose disconnect is recorded. -/
theorem Follows.releaseInner (h : Follows ss cl ds (lv + if ls.live = true then 1 else 0)) :
    Follows (ls.releaseInner ss).2 cl ds lv := by
  have horder := h.order
  unfold WindowsCallbackLease.releaseInner
  split_ifs with hrel
  · rw [WindowsCallbackLease.live, hrel] at h
    exact h
  rw [Bool.not_eq_true] at hrel
  rw [WindowsCallbackLease.live, hrel] at h
  have hact : ss.activeCallbacks - 1 = lv := by
    rw [h.active]
    rfl
  refine ⟨hact, ?_, horder⟩
  dsimp only
  rw [hact]
  by_cases hlast : ss.state = .draining ∧ lv = 0
  · have hdisc : ds = true := (h.draining_iff.mp hlast.1).1
    rw [if_pos hlast, horder hdisc, hdisc, hlast.2]
    rfl
  · rw [h.state, lifecycleOf, lifecycleOf]
    cases cl <;> cases ds <;> simp_all

lemma lifecycleRank_beginClosing :
    lifecycleRank session.state ≤ lifecycleRank session.beginClosing.2.state := by
  unfold WindowsConnectionSession.beginClosing
  split_ifs with hstate
  · rw [hstate]
    exact Nat.zero_le _
  · exact le_rfl

lemma lifecycleRank_markDisconnected (hm : ss.markDisconnected = .ok s') :
    lifecycleRank ss.state ≤ lifecycleRank s'.state := by
  unfold WindowsConnectionSession.markDisconnected at hm
  split at hm
  case h_1 hstate =>
    cases hm
    dsimp only
    rw [hstate]
    split_ifs <;> decide
  case h_2 =>
    cases hm
    exact le_rfl
  case h_3 =>
    cases hm
    exact le_rfl
  case h_4 => cases hm

lemma lifecycleRank_releaseInner :
    lifecycleRank session.state ≤ lifecycleRank (lease.releaseInner session).2.state := by
  unfold releaseInner
  split_ifs with hrel
  · exact le_rfl
  · dsimp only
    split_ifs with hlast
    · rw [hlast.1]
      decide
    · exact le_rfl

end

end AsterForge.Windows
