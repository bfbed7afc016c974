import AsterForge.Library.Checks
import Mathlib.Data.Finset.Card
import Mathlib.Data.List.Chain

/-!
# Depth-first walks

A walk over the nodes of a graph that finishes a node after its children, with the nodes that have been
entered and not left, and the nodes that are finished.  The graph may have cycles, and a walk may be
started from several nodes.  As much fuel as there are nodes is enough, since every call that goes
deeper has entered one more.

* **`visit_extends`** — a walk finishes new nodes only, each of them once.
* **`visitAll_nodup`**, **`mem_visitAll`** — every start is finished, and nothing twice.
* **`visit_fuel`** — the bound on the fuel.
* **`visitAll_ordered`** — a child is finished before its parent, unless it leads back to it.
* **`seekCycle_sought`** — a walk that fails at the first cycle finishes nothing that leads to one.
-/

namespace AsterForge.Library

open List

variable {κ : Type*}

structure Walk (κ : Type*) where
  /-- Entered and not left, the innermost first. -/
  visiting : List κ
  /-- Finished, in the order they were. -/
  visited : List κ

/-- `later` has finished some nodes more than `walk`, each of them once and none of those that are
entered. -/
def Walk.ExtendedBy (walk later : Walk κ) : Prop :=
  later.visiting = walk.visiting ∧
    ∃ finished, later.visited = walk.visited ++ finished ∧ finished.Nodup ∧
      ∀ node ∈ finished, node ∉ walk.visited ∧ node ∉ walk.visiting

namespace Walk.ExtendedBy

lemma refl (w : Walk κ) : w.ExtendedBy w :=
  ⟨rfl, [], (append_nil _).symm, nodup_nil, by simp⟩

lemma trans {first s t : Walk κ} (h : first.ExtendedBy s) (h' : s.ExtendedBy t) : first.ExtendedBy t := by
  obtain ⟨hvs, f, hv, hn, hnw⟩ := h
  obtain ⟨hvs', f', hv', hn', hnw'⟩ := h'
  refine ⟨hvs'.trans hvs, f ++ f', ?_, ?_, ?_⟩
  · rw [hv', hv, append_assoc]
  · refine List.Nodup.append hn hn' ?_
    intro node hm hm'
    have hnot := (hnw' node hm').1
    rw [hv, mem_append] at hnot
    exact hnot (.inr hm)
  · intro node hm
    rcases mem_append.mp hm with hm | hm
    · exact hnw node hm
    · have hnot := hnw' node hm
      rw [hv, hvs, mem_append] at hnot
      exact ⟨fun h => hnot.1 (.inl h), hnot.2⟩

lemma mem {w l : Walk κ} (h : w.ExtendedBy l) {n : κ} (hm : n ∈ w.visited) : n ∈ l.visited := by
  obtain ⟨-, f, hv, -, -⟩ := h
  rw [hv]
  exact mem_append_left _ hm

end Walk.ExtendedBy

variable [DecidableEq κ]

def Walk.enter (walk : Walk κ) (node : κ) : Walk κ :=
  { walk with visiting := node :: walk.visiting }

def Walk.leave (walk : Walk κ) (node : κ) : Walk κ where
  visiting := walk.visiting.erase node
  visited := walk.visited ++ [node]

def visit (children : κ → List κ) : ℕ → κ → Walk κ → Walk κ
  | 0, _, walk => walk
  | fuel + 1, node, walk =>
    if node ∈ walk.visited then walk
    else if node ∈ walk.visiting then walk
    else
      let walk := (children node).foldl (fun walk child => visit children fuel child walk) (walk.enter node)
      walk.leave node

/-- The walk from several nodes, one after the other. -/
def visitAll (children : κ → List κ) (fuel : ℕ) (starts : List κ) : Walk κ :=
  starts.foldl (fun walk start => visit children fuel start walk) ⟨[], []⟩

variable {children : κ → List κ}

/-! ## What one walk does -/

lemma foldl_relation {α β : Type*} {R : β → β → Prop} {s : β → α → β}
    (r : ∀ b, R b b) (trans : ∀ {a b c}, R a b → R b c → R a c) (hs : ∀ b a, R b (s b a))
    (xs : List α) (b : β) : R b (xs.foldl s b) := by
  induction xs generalizing b with
  | nil => exact r b
  | cons x xs ih => exact trans (hs b x) (ih (s b x))

lemma visit_visiting (f : ℕ) (n : κ) (w : Walk κ) : (visit children f n w).visiting = w.visiting := by
  induction f generalizing n w with
  | zero => rfl
  | succ f ih =>
    rw [visit]
    split
    · rfl
    · split
      · rfl
      · have hchil : ((children n).foldl (fun w c => visit children f c w)
            (w.enter n)).visiting = (w.enter n).visiting :=
          foldl_relation (R := fun a b : Walk κ => b.visiting = a.visiting) (fun _ => rfl)
            (fun hab hbc => hbc.trans hab) (fun b a => ih a b) (children n) (w.enter n)
        simp only [Walk.leave, hchil]
        simp [Walk.enter]

variable {walk : Walk κ} {node : κ} {fuel : ℕ}

lemma Walk.ExtendedBy.around {l : Walk κ} (hv : node ∉ walk.visited)
    (hvs : node ∉ walk.visiting) (h : (walk.enter node).ExtendedBy l) : walk.ExtendedBy (l.leave node) := by
  obtain ⟨hl, f, hf, hnp, hn⟩ := h
  refine ⟨?_, f ++ [node], ?_, ?_, ?_⟩
  · simp [Walk.leave, hl, Walk.enter]
  · simp [Walk.leave, hf, Walk.enter]
  · refine List.Nodup.append hnp (nodup_singleton node) ?_
    intro o ho hnd
    rw [mem_singleton] at hnd
    exact (hn o ho).2 (hnd ▸ mem_cons_self)
  · intro o ho
    rcases mem_append.mp ho with ho | ho
    · exact ⟨(hn o ho).1, fun h => (hn o ho).2 (mem_cons_of_mem _ h)⟩
    · rw [mem_singleton] at ho
      exact ho ▸ ⟨hv, hvs⟩

/-- **A walk finishes new nodes only, each of them once.** -/
theorem visit_extends (f : ℕ) (n : κ) (w : Walk κ) : w.ExtendedBy (visit children f n w) := by
  induction f generalizing n w with
  | zero => exact .refl w
  | succ f ih =>
    rw [visit]
    split
    · exact .refl w
    · split
      · exact .refl w
      · exact .around ‹_› ‹_›
          (foldl_relation Walk.ExtendedBy.refl Walk.ExtendedBy.trans (fun b a => ih a b) _ _)

lemma mem_visit (hv : node ∉ walk.visiting) : node ∈ (visit children (fuel + 1) node walk).visited := by
  rw [visit]
  split
  · assumption
  · exact mem_append_right _ (mem_singleton_self node)

/-! ## Walks from several nodes -/

lemma foldl_visit_extends (f : ℕ) (st : List κ) (w : Walk κ) :
    w.ExtendedBy (st.foldl (fun w s => visit children f s w) w) :=
  foldl_relation Walk.ExtendedBy.refl Walk.ExtendedBy.trans (fun w s => visit_extends f s w) st w

/-- Nothing is finished twice. -/
theorem visitAll_nodup (fl : ℕ) (s : List κ) : (visitAll children fl s).visited.Nodup := by
  have hextends : Walk.ExtendedBy ⟨[], []⟩ (visitAll children fl s) :=
    foldl_visit_extends fl s ⟨[], []⟩
  obtain ⟨-, f, hv, hn, -⟩ := hextends
  rw [hv]
  exact hn

/-- Every start is finished. -/
theorem mem_visitAll {s : List κ} (h : node ∈ s) : node ∈ (visitAll children (fuel + 1) s).visited := by
  suffices hfold : ∀ walk : Walk κ, walk.visiting = [] →
      node ∈ (s.foldl (fun walk st => visit children (fuel + 1) st walk) walk).visited
    from hfold _ rfl
  intro walk hw
  induction s generalizing walk with
  | nil => cases h
  | cons st s ih =>
    have hleft : (visit children (fuel + 1) st walk).visiting = [] :=
      (visit_visiting _ _ _).trans hw
    rcases mem_cons.mp h with rfl | h
    · have hmem : node ∈ (visit children (fuel + 1) node walk).visited :=
        mem_visit (by simp [hw])
      exact (foldl_visit_extends _ s _).mem hmem
    · exact ih h _ hleft

variable {nd : Finset κ}

/-! ## Fuel -/

def unentered (nodes : Finset κ) (walk : Walk κ) : ℕ :=
  (nodes.filter (· ∉ walk.visiting)).card

lemma unentered_enter (hn : node ∈ nd) (hv : node ∉ walk.visiting) :
    unentered nd (walk.enter node) < unentered nd walk := by
  refine Finset.card_lt_card (Finset.ssubset_iff_of_subset ?_ |>.mpr ⟨node, ?_, ?_⟩)
  · intro x hx
    simp only [Finset.mem_filter, Walk.enter, mem_cons, not_or] at hx ⊢
    exact ⟨hx.1, hx.2.2⟩
  · simp [hn, hv]
  · simp [Walk.enter]

/-- **Fuel.**  On a set of nodes closed under children, a walk with more fuel than there are nodes
left to enter is the same with any more of it. -/
theorem visit_fuel (hc : ∀ node ∈ nd, ∀ c ∈ children node, c ∈ nd) {m : ℕ}
    (hn : node ∈ nd) (hf : unentered nd walk < fuel)
    (hm : fuel ≤ m) : visit children m node walk = visit children fuel node walk := by
  induction fuel generalizing m node walk with
  | zero => exact absurd hf (Nat.not_lt_zero _)
  | succ fuel ih =>
    obtain ⟨m, rfl⟩ : ∃ n, m = n + 1 := ⟨m - 1, by omega⟩
    rw [visit, visit]
    split
    · rfl
    · split
      · rfl
      · -- the children are visited with the node entered, which is one node fewer to enter
        have hless : unentered nd (walk.enter node) < fuel :=
          lt_of_lt_of_le (unentered_enter hn ‹_›) (Nat.le_of_lt_succ hf)
        have hfold : ∀ r : List κ, (∀ c ∈ r, c ∈ nd) → ∀ w' : Walk κ,
            w'.visiting = (walk.enter node).visiting →
              r.foldl (fun walk c => visit children m c walk) w' =
                r.foldl (fun walk c => visit children fuel c walk) w' := by
          intro r hr
          induction r with
          | nil => exact fun w' _ => rfl
          | cons c r i =>
            intro w' hw'
            have hsame : visit children m c w' = visit children fuel c w' := by
              refine ih (hr c mem_cons_self) ?_ (by omega)
              rw [unentered, hw']
              exact hless
            rw [foldl_cons, hsame]
            exact i (fun x hx => hr x (mem_cons_of_mem _ hx)) _ ((visit_visiting _ _ _).trans hw')
        rw [hfold _ (hc node hn) _ rfl]

/-! ## Children first -/

variable (children) in
/-- There is a way down from the first node to the second. -/
def LeadsTo : κ → κ → Prop := Relation.ReflTransGen fun node child => child ∈ children node

variable (children) in
/-- A finished node comes after each of its children, but for those that lead back to it. -/
def Walk.Ordered (walk : Walk κ) : Prop :=
  ∀ node ∈ walk.visited, ∀ child ∈ children node, ¬ LeadsTo children child node →
    [child, node].Sublist walk.visited

lemma Walk.Ordered.leave (h : walk.Ordered children)
    (hch : ∀ c ∈ children node, ¬ LeadsTo children c node → c ∈ walk.visited) :
    (walk.leave node).Ordered children := by
  intro o ho c hc hn
  rcases mem_append.mp ho with ho | ho
  · exact (h o ho c hc hn).trans (sublist_append_left _ _)
  · rw [mem_singleton] at ho
    subst ho
    exact List.Sublist.append (singleton_sublist.mpr (hch c hc hn)) (List.Sublist.refl [o])

/-- Children that are not entered are finished by their walks, so only what is entered, and leads to the
node that is being walked from, can be missing when that node is left. -/
theorem visit_ordered (hcl : ∀ node ∈ nd, ∀ c ∈ children node, c ∈ nd) (hn : node ∈ nd)
    (hfl : unentered nd walk < fuel) (hs : ∀ x ∈ walk.visiting, LeadsTo children x node)
    (h : walk.Ordered children) : (visit children fuel node walk).Ordered children := by
  induction fuel generalizing node walk with
  | zero => exact h
  | succ fuel ih =>
    rw [visit]
    split
    · exact h
    · split
      · exact h
      · have hless : unentered nd (walk.enter node) < fuel :=
          lt_of_lt_of_le (unentered_enter hn ‹_›) (Nat.le_of_lt_succ hfl)
        have hentered : ∀ x ∈ node :: walk.visiting, LeadsTo children x node := by
          intro x hx
          rcases mem_cons.mp hx with rfl | hx
          · exact .refl
          · exact hs x hx
        have hfold : ∀ r : List κ, (∀ c ∈ r, c ∈ children node) → ∀ w' : Walk κ,
            w'.visiting = node :: walk.visiting → w'.Ordered children →
              (r.foldl (fun walk c => visit children fuel c walk) w').Ordered children ∧
                ∀ c ∈ r, ¬ LeadsTo children c node → c ∈
                  (r.foldl (fun walk c => visit children fuel c walk) w').visited := by
          intro r hr
          induction r with
          | nil => exact fun w' _ hor => ⟨hor, forall_mem_nil _⟩
          | cons c r i =>
            intro w' hw' hor
            have hc := hr c mem_cons_self
            have hvisit : (visit children fuel c w').Ordered children := by
              refine ih (hcl node hn c hc) ?_ ?_ hor
              · rw [unentered, hw']
                exact hless
              · rw [hw']
                exact fun x hx => (hentered x hx).tail hc
            obtain ⟨hl, hf⟩ :=
              i (fun x hx => hr x (mem_cons_of_mem _ hx)) _ ((visit_visiting _ _ _).trans hw') hvisit
            refine ⟨hl, fun o ho hnt => ?_⟩
            rcases mem_cons.mp ho with rfl | ho
            · obtain ⟨fuel, rfl⟩ : ∃ n, fuel = n + 1 := ⟨fuel - 1, by omega⟩
              have hmem : o ∈ (visit children (fuel + 1) o w').visited :=
                mem_visit fun hx => hnt (hentered o (hw' ▸ hx))
              exact (foldl_visit_extends _ r _).mem hmem
            · exact hf o ho hnt
        obtain ⟨hor, hf⟩ := hfold _ (fun c hc => hc) (walk.enter node) rfl h
        exact hor.leave hf

/-- **Children first.**  With enough fuel, every finished node comes after each of its children that does
not lead back to it, whatever cycles there are elsewhere. -/
theorem visitAll_ordered (hc : ∀ node ∈ nd, ∀ c ∈ children node, c ∈ nd)
    (hf : nd.card < fuel) {s : List κ} (hs : ∀ node ∈ s, node ∈ nd) :
    (visitAll children fuel s).Ordered children := by
  suffices hfold : ∀ walk : Walk κ, walk.visiting = [] → walk.Ordered children →
      (s.foldl (fun walk st => visit children fuel st walk) walk).Ordered children from
    hfold ⟨[], []⟩ rfl (forall_mem_nil _)
  induction s with
  | nil => exact fun walk _ h => h
  | cons st s ih =>
    intro walk hw h
    refine ih (fun x hx => hs x (mem_cons_of_mem _ hx)) _
      ((visit_visiting _ _ _).trans hw) (visit_ordered hc (hs st mem_cons_self)
        ((Finset.card_filter_le _ _).trans_lt hf) ?_ h)
    rw [hw]
    exact forall_mem_nil _

/-! ## Looking for a cycle -/

/-- A walk that fails where it comes to a node that is entered, with the way from there back to it.  Out of
fuel it fails with nothing. -/
def seekCycle (children : κ → List κ) : ℕ → κ → Walk κ → Except (Option (List κ)) (Walk κ)
  | 0, _, _ => .error none
  | fuel + 1, node, walk =>
    if node ∈ walk.visited then .ok walk
    else if node ∈ walk.visiting then
      .error (some (node :: (walk.visiting.takeWhile (· ≠ node)).reverse ++ [node]))
    else do
      let walk ← (children node).foldlM (fun walk child => seekCycle children fuel child walk)
        (walk.enter node)
      return walk.leave node

/-- No way down from a node is infinite. -/
def Settled (children : κ → List κ) : κ → Prop := Acc fun child node => child ∈ children node

/-- What a search comes to that has to finish some targets. -/
def Walk.Sought (walk : Walk κ) (children : κ → List κ) (exhausted : Prop) (targets : List κ) :
    Except (Option (List κ)) (Walk κ) → Prop
  | .ok later => later.visiting = walk.visiting ∧ (∀ node ∈ walk.visited, node ∈ later.visited) ∧
      (∀ node ∈ targets, node ∈ later.visited) ∧ ∀ node ∈ later.visited, Settled children node
  | .error none => exhausted
  | .error (some cycle) => ∃ first middle, cycle = first :: middle ++ [first] ∧
      cycle.IsChain fun node child => child ∈ children node

omit [DecidableEq κ] in
lemma sought_foldlM {e : Prop} {s : Walk κ → κ → Except (Option (List κ)) (Walk κ)}
    {t : List κ} (hw : ∀ node ∈ walk.visited, Settled children node)
    (hs : ∀ tr ∈ t, ∀ l : Walk κ, l.visiting = walk.visiting →
      (∀ node ∈ l.visited, Settled children node) → l.Sought children e [tr] (s l tr)) :
    walk.Sought children e t (t.foldlM s walk) := by
  induction t generalizing walk with
  | nil => exact ⟨rfl, fun _ h => h, forall_mem_nil _, hw⟩
  | cons tr t ih =>
    have hfirst := hs tr mem_cons_self walk rfl hw
    rw [foldlM_cons]
    cases hres : s walk tr with
    | error f =>
      rw [hres] at hfirst
      cases f <;> exact hfirst
    | ok m =>
      rw [hres] at hfirst
      obtain ⟨hv, hk, htg, hm⟩ := hfirst
      have hrest : m.Sought children e t (t.foldlM s m) := by
        refine ih hm fun o ho l hl => hs o (mem_cons_of_mem _ ho) l ?_
        exact hl.trans hv
      rw [ok_bind]
      cases hlast : t.foldlM s m with
      | error f =>
        rw [hlast] at hrest
        cases f <;> exact hrest
      | ok l =>
        rw [hlast] at hrest
        obtain ⟨hlf, hk', ht, hl⟩ := hrest
        refine ⟨hlf.trans hv, fun node h => hk' node (hk node h), ?_, hl⟩
        exact forall_mem_cons.mpr ⟨hk' tr (htg tr mem_cons_self), ht⟩

/-- **A search** finishes its node, with nothing that leads to a cycle, or finds a cycle, or has less fuel than
there are nodes left to enter. -/
theorem seekCycle_sought (hcl : ∀ node ∈ nd, ∀ c ∈ children node, c ∈ nd)
    (hn : node ∈ nd) (hp : (node :: walk.visiting).IsChain fun c node => c ∈ children node)
    (hw : ∀ node ∈ walk.visited, Settled children node) :
    walk.Sought children (fuel ≤ unentered nd walk) [node] (seekCycle children fuel node walk) := by
  induction fuel generalizing node walk with
  | zero => exact Nat.zero_le _
  | succ fuel ih =>
    rw [seekCycle]
    split
    · exact ⟨rfl, fun _ h => h, forall_mem_singleton.mpr ‹_›, hw⟩
    · split
      · rename_i hvis
        refine ⟨node, _, rfl, ?_⟩
        -- the path from the node to itself, innermost first
        have hprefix : node :: walk.visiting.takeWhile (· ≠ node) ++ [node] <+: node :: walk.visiting := by
          obtain ⟨b, a, hsp, hb⟩ := eq_append_cons_of_mem hvis
          have htake : walk.visiting.takeWhile (· ≠ node) = b := by
            rw [hsp, takeWhile_append_of_pos, takeWhile_cons_of_neg, append_nil]
            · simp
            · exact fun o ho => decide_eq_true fun h => hb (h ▸ ho)
          rw [htake, hsp]
          exact ⟨a, by simp⟩
        have hchain := (isChain_reverse.mpr ( hp.prefix hprefix))
        simpa using hchain
      · rename_i hvisited hvis
        have hless := unentered_enter hn hvis
        have hfold : (walk.enter node).Sought children (fuel ≤ unentered nd (walk.enter node)) (children node)
            ((children node).foldlM (fun walk c => seekCycle children fuel c walk) (walk.enter node)) := by
          refine sought_foldlM hw fun c hc l hl hs => ?_
          have hsame : unentered nd l = unentered nd (walk.enter node) := by
            rw [unentered, hl, unentered]
          rw [← hsame]
          refine ih (hcl node hn c hc) ?_ hs
          rw [hl]
          exact isChain_cons_cons.mpr ⟨hc, hp⟩
        cases hres : (children node).foldlM (fun walk c => seekCycle children fuel c walk)
            (walk.enter node) with
        | error f =>
          rw [hres] at hfold
          cases f with
          | none => exact (Nat.succ_le_succ hfold).trans hless
          | some cy => exact hfold
        | ok l =>
          rw [hres] at hfold
          obtain ⟨hlf, hk, hch, hs⟩ := hfold
          refine ⟨?_, fun o h => mem_append_left _ (hk o h),
            forall_mem_singleton.mpr (mem_append_right _ (mem_singleton_self node)), ?_⟩
          · simp [Walk.leave, hlf, Walk.enter]
          · intro o ho
            rcases mem_append.mp ho with ho | ho
            · exact hs o ho
            · rw [mem_singleton.mp ho]
              exact .intro node fun c hc => hs c (hch c hc)

omit [DecidableEq κ] in
lemma Settled.not_transGen (h : Settled children node) :
    ¬ Relation.TransGen (fun node c => c ∈ children node) node node := by
  have hself : ∀ {r : κ → κ → Prop} {a : κ}, Acc r a → ¬ r a a := by
    intro r a ha
    induction ha with
    | intro a _ ih => exact fun hl => ih a hl hl
  intro hc
  exact hself (Acc.transGen h) (Relation.transGen_swap.mp hc)

omit [DecidableEq κ] in
lemma transGen_of_isChain {r : κ → κ → Prop} {first l : κ} {m : List κ}
    (h : (first :: m ++ [l]).IsChain r) : Relation.TransGen r first l := by
  induction m generalizing first with
  | nil => exact .single (isChain_pair.mp h)
  | cons next m ih =>
    obtain ⟨hn, hr⟩ := isChain_cons_cons.mp h
    exact .head hn (ih hr)

end AsterForge.Library
