import AsterForge.Webdav.PropertyRequirements

/-!
# Values that were not asked for

The composer tries the extension value of every live property that it resolves against the bytes that remain,
also of those whose values are no extension values.  Where extension values are not required, one that a batch
has nevertheless may use up what remains.

* `composedProperties_exceeds` — with large extension values, no answer fits that resolves a live property.
* **`livePropertyRequirements_sufficient_iff`** — the requests for which the required groups are enough.
-/

namespace AsterForge.Webdav

open Library Xml Stateful Affordable List

variable {host : PropertyHost} {snapshot : DavCapabilitySnapshot}

/-! ## Answers that fit -/

namespace PropertyBudget

instance : Zero PropertyBudget := ⟨0, 0⟩

instance : Add PropertyBudget := ⟨fun budget more => ⟨budget.bytes + more.bytes, budget.properties + more.properties⟩⟩

@[simp] lemma zero_bytes : (0 : PropertyBudget).bytes = 0 := rfl

@[simp] lemma zero_properties : (0 : PropertyBudget).properties = 0 := rfl

variable (budget m : PropertyBudget)

@[simp] lemma add_bytes : (budget + m).bytes = budget.bytes + m.bytes := rfl

@[simp] lemma add_properties : (budget + m).properties = budget.properties + m.properties := rfl

instance : AddCommMonoid PropertyBudget where
  add_assoc a b c := by ext <;> simp [add_assoc]
  zero_add a := by ext <;> simp
  add_zero a := by ext <;> simp
  add_comm a b := by ext <;> simp [add_comm]
  nsmul := nsmulRec

end PropertyBudget

lemma affordable_takeBytes (b : ℕ) : Affordable .limitExceeded (takeBytes b) := by
  refine ⟨⟨b, 0⟩, 0, .ok (), nofun, ?_⟩
  intro r
  have hle : b ≤ (⟨b, 0⟩ + r : PropertyBudget).bytes := Nat.le_add_right _ _
  simp only [takeBytes, if_pos hle, Prod.mk.injEq, true_and]
  ext <;> simp

lemma affordable_takeProperty : Affordable .limitExceeded takeProperty := by
  refine ⟨⟨0, 1⟩, 0, .ok (), nofun, ?_⟩
  intro r
  have hle : 1 ≤ (⟨0, 1⟩ + r : PropertyBudget).properties := Nat.le_add_right _ _
  simp only [takeProperty, if_pos hle, Prod.mk.injEq, true_and]
  ext <;> simp

variable (o : List DavXmlElement)

lemma affordable_pushProperty (e : DavXmlElement) : Affordable .limitExceeded (pushProperty host o e) := by
  refine affordable_takeProperty.bind fun _ => bind ?_ fun _ => affordable_pure _
  exact forM (fun e => affordable_takeBytes _) _

lemma affordable_withRemaining {α : Type} {l : ℕ → Except DavLivePropertyError α} (n : ℕ)
    {r : Except DavLivePropertyError α} (hl : r ≠ .error .limitExceeded)
    (h : ∀ rs, l (n + rs) = r) : Affordable .limitExceeded (withRemaining l) := by
  refine affordable_look ⟨n, 0⟩ hl ?_
  intro rs
  exact h rs.bytes

variable {property : DavLiveProperty} {r : ℕ}

lemma requiredUri_ne_limit {v : Option Text} {p : UriValidationPolicy} :
    requiredUri host v property p ≠ .error .limitExceeded := by
  cases v with
  | none => nofun
  | some v =>
    unfold requiredUri
    by_cases h : uriMatchesPolicy host v p = false
    · simp [okOr, refuse, h]
    · simp [okOr, refuse, h]

variable {rq : DavRequestedProperty} {l : ℕ} {bd : PropertyBudget}

lemma currentPrincipalElement_ne_limit {v : Option DavCurrentPrincipal} :
    currentPrincipalElement host v rq ≠ .error .limitExceeded := by
  cases v with
  | none => nofun
  | some p =>
    refine except_bind_ne_error (except_ok_ne_error p _) fun p =>
      except_bind_ne_error ?_ fun _ => except_ok_ne_error _ _
    cases p with
    | href hr => exact except_bind_ne_error requiredUri_ne_limit fun _ => except_ok_ne_error _ _
    | unauthenticated => exact except_ok_ne_error _ _

lemma livePropertyElement_ne_limit (h : PropertyHost) (s : DavCapabilitySnapshot)
    (v : DavLivePropertyValues) (p : DavLiveProperty) (requested : DavRequestedProperty) :
    livePropertyElement h s v p requested ≠ .error .limitExceeded := by
  cases p with
  | getLastModified =>
    simp only [livePropertyElement]
    split
    · cases h.formatHttpDate _ <;> simp [okOr]
    · exact except_ok_ne_error _ _
  | quotaUsedBytes =>
    simp only [livePropertyElement]
    split
    · exact except_ok_ne_error _ _
    · split <;> simp
  | syncToken | addMember =>
    refine except_bind_ne_error ?_ fun _ => except_ok_ne_error _ _
    exact except_bind_ne_error requiredUri_ne_limit fun _ => except_ok_ne_error _ _
  | currentUserPrincipal =>
    exact except_bind_ne_error currentPrincipalElement_ne_limit fun _ => except_ok_ne_error _ _
  | _ => exact except_ok_ne_error _ _

lemma resolveLiveProperty_none (p : DavLiveProperty) (requested : DavRequestedProperty) (remaining : ℕ) :
    resolveLiveProperty host snapshot {} p requested remaining =
      livePropertyElement host snapshot {} p requested := by
  have hsrc : propertySourceBytes {} p = 0 := by cases p <;> rfl
  simp [resolveLiveProperty, checkPropertySourceSize, hsrc]

lemma affordable_resolveInto (g : PropertyGroups) (requested : DavRequestedProperty) :
    Affordable .limitExceeded (resolveInto host snapshot {} g requested) := by
  refine bind ?_ ?_
  · cases hresol : resolvedProperty snapshot requested with
    | none =>
      refine affordable_withRemaining (selectorBytes requested) (except_ok_ne_error none _) ?_
      simp [resolveRequestedProperty, hresol, resolveDeadProperty, findDeadProperty]
    | some property =>
      have hlimit := livePropertyElement_ne_limit host snapshot {} property requested
      refine affordable_withRemaining (selectorBytes requested) hlimit ?_
      simp [resolveRequestedProperty, hresol, resolveLiveProperty_none]
  · intro e
    cases e with
    | none | some e => exact (affordable_pushProperty _ _).bind fun _ => affordable_pure _

/-- **Without values an answer fits** if there is enough room for it. -/
theorem affordable_composedProperties (r : DavPropfindRequest) :
    Affordable .limitExceeded (composedProperties host snapshot {} r) := by
  cases r with
  | allProp i =>
    refine bind ?_ fun ok => bind ?_ fun ok => bind ?_ fun _ => affordable_pure _
    · refine foldlM ?_ _ _
      intro ok property
      unfold appendCatalogProperty
      split
      · refine bind ?_ ?_
        · have hlimit := livePropertyElement_ne_limit host snapshot {} property (canonicalProperty property)
          refine affordable_withRemaining 0 hlimit ?_
          intro rs
          exact resolveLiveProperty_none property (canonicalProperty property) (0 + rs)
        · intro e
          cases e with
          | none => exact affordable_pure ok
          | some e => exact affordable_pushProperty ok e
      · exact affordable_pure ok
    · exact affordable_pure ok
    · refine foldlM ?_ _ _
      intro g rq
      unfold appendIncluded
      split
      · exact affordable_pure g
      · exact affordable_resolveInto g rq
  | propName =>
    refine bind ?_ fun n => bind (affordable_pure n) fun _ => affordable_pure _
    refine foldlM ?_ _ _
    intro n property
    unfold appendDefinedName
    split
    · exact affordable_pushProperty n _
    · exact affordable_pure n
  | prop rq =>
    refine bind ?_ fun _ => affordable_pure _
    refine foldlM ?_ _ _
    intro s first
    unfold appendRequested
    split
    · exact affordable_pure s
    · exact (affordable_resolveInto s.groups first).bind fun _ => affordable_pure _

/-! ## Answers that do not fit -/

def longElement (length : ℕ) : DavXmlElement where
  head := {
    name := replicate length 'x'
    nsPrefix := none
    namespaceUri := none
    namespaces := .empty
    attributes := .empty }
  children := []

def longValues (length : ℕ) : DavLivePropertyValues := { extensionValue := fun _ => some (longElement length) }

lemma le_propertyElementBytes (h : PropertyHost) (length : ℕ) :
    length ≤ propertyElementBytes h (longElement length) := by
  have hname : utf8Length (replicate length 'x') = length := by
    rw [utf8Length, map_replicate, sum_replicate_nat]
    exact Nat.mul_one length
  simp only [propertyElementBytes, longElement, hname]
  omega

lemma chargePropertyElement_long (h : bd.bytes < l) :
    (chargePropertyElement host (longElement l) bd).1 = .error .limitExceeded := by
  have hlarge : ¬ propertyElementBytes host (longElement l) ≤ bd.bytes := by
    have hle := le_propertyElementBytes host l
    omega
  have hfirst : takeBytes (propertyElementBytes host (longElement l)) bd =
      (.error .limitExceeded, bd) := if_neg hlarge
  have hloop : chargePropertyElement host (longElement l) bd = (.error .limitExceeded, bd) :=
    bind_of_error hfirst
  rw [hloop]

lemma resolveLiveProperty_long (h : r < l) (p : DavLiveProperty) (requested : DavRequestedProperty) :
    resolveLiveProperty host snapshot (longValues l) p requested r = .error .limitExceeded := by
  have hcharge : (chargePropertyElement host (longElement l) ⟨r, 2 ^ 64 - 1⟩).1 =
      .error .limitExceeded := chargePropertyElement_long h
  have hsrc : propertySourceBytes (longValues l) p = 0 := by cases p <;> rfl
  have hcheck : checkPropertySourceSize host (longValues l) p r = .error .limitExceeded := by
    simp only [checkPropertySourceSize, hsrc]
    exact hcharge
  rw [resolveLiveProperty, hcheck]
  rfl

lemma resolveRequestedProperty_long (h : r < l) (hr : resolvedProperty snapshot rq = some property) :
    resolveRequestedProperty host snapshot (longValues l) rq r = .error .limitExceeded := by
  unfold resolveRequestedProperty
  by_cases hselector : r < selectorBytes rq
  · simp [refuse, hselector]
  · simp [refuse, hselector, hr, resolveLiveProperty_long h]

lemma consumes_pushProperty (e : DavXmlElement) :
    Consumes PropertyBudget.bytes .limitExceeded (pushProperty host o e) := by
  refine Consumes.bind ?_ fun _ => Consumes.bind (Consumes.forM ?_ _) fun _ => consumes_pure _ _ _
  · intro bd
    unfold takeProperty
    split
    · exact .inr ⟨(), _, rfl, le_rfl⟩
    · exact .inl ⟨bd, rfl⟩
  · intro e bd
    unfold takeBytes
    split
    · exact .inr ⟨(), _, rfl, Nat.sub_le _ _⟩
    · exact .inl ⟨bd, rfl⟩

lemma consumes_resolveInto (hr : resolvedProperty snapshot rq = none) (g : PropertyGroups) :
    Consumes PropertyBudget.bytes .limitExceeded (resolveInto host snapshot (longValues l) g rq) := by
  refine Consumes.bind ?_ ?_
  · intro bd
    by_cases hselector : bd.bytes < selectorBytes rq
    · simp [withRemaining, resolveRequestedProperty, refuse, hselector]
    · simp [withRemaining, resolveRequestedProperty, refuse, hselector, hr, resolveDeadProperty,
        findDeadProperty, longValues]
  · intro e
    cases e with
    | none | some e => exact (consumes_pushProperty _ _).bind fun _ => consumes_pure _ _ _

lemma resolvedProperty_congr {r' : DavRequestedProperty}
    (hns : rq.namespaceUri = r'.namespaceUri) (hn : rq.name = r'.name) :
    resolvedProperty snapshot rq = resolvedProperty snapshot r' := by
  simp only [resolvedProperty, liveProperty, hns, hn]

/-- By induction on the list: what comes before the first live property runs out or goes on with less. -/
lemma requested_exceeds {p : List DavRequestedProperty} {s : SeenProperties} (hb : bd.bytes < l)
    (hl : ∃ rq ∈ p, resolvedProperty snapshot rq ≠ none ∧ (rq.namespaceUri, rq.name) ∉ s.seen) :
    (p.foldlM (appendRequested host snapshot (longValues l)) s bd).1 = .error .limitExceeded := by
  induction p generalizing s bd with
  | nil =>
    obtain ⟨_, hm, -⟩ := hl
    cases hm
  | cons first p ih =>
    obtain ⟨rq, hm, hs, hf⟩ := hl
    rw [foldlM_cons]
    by_cases hseen : s.seen.contains (first.namespaceUri, first.name) = true
    · have hskip : appendRequested host snapshot (longValues l) s first bd = (.ok s, bd) := by
        rw [appendRequested, if_pos hseen]
        rfl
      rw [bind_of_ok hskip]
      refine ih hb ⟨rq, ?_, hs, hf⟩
      refine (mem_cons.mp hm).resolve_left ?_
      rintro rfl
      exact hf (contains_iff_mem.mp hseen)
    · cases hresol : resolvedProperty snapshot first with
      | some property =>
        have hfails : appendRequested host snapshot (longValues l) s first bd =
            (.error .limitExceeded, bd) := by
          rw [appendRequested, if_neg hseen]
          refine bind_of_error (bind_of_error ?_)
          rw [withRemaining, resolveRequestedProperty_long hb hresol]
        rw [bind_of_error hfails]
      | none =>
        have hconsumes : Consumes PropertyBudget.bytes .limitExceeded
            (resolveInto host snapshot (longValues l) s.groups first) :=
          consumes_resolveInto hresol s.groups
        have happend : appendRequested host snapshot (longValues l) s first =
            resolveInto host snapshot (longValues l) s.groups first >>= fun g =>
              pure ⟨(first.namespaceUri, first.name) :: s.seen, g⟩ := if_neg hseen
        rcases hconsumes bd with ⟨b', hr⟩ | ⟨g, b', hr, hle⟩
        · have hfails : appendRequested host snapshot (longValues l) s first bd =
              (.error .limitExceeded, b') := by
            rw [happend]
            exact bind_of_error hr
          rw [bind_of_error hfails]
        · have hgoes : appendRequested host snapshot (longValues l) s first bd =
              (.ok ⟨(first.namespaceUri, first.name) :: s.seen, g⟩, b') := by
            rw [happend, bind_of_ok hr]
            rfl
          rw [bind_of_ok hgoes]
          refine ih (hle.trans_lt hb) ⟨rq, ?_, hs, ?_⟩
          · refine (mem_cons.mp hm).resolve_left ?_
            rintro rfl
            exact hs hresol
          · rw [mem_cons, not_or]
            refine ⟨?_, hf⟩
            intro hsm
            obtain ⟨hns, hn⟩ := Prod.mk.inj hsm
            exact hs ((resolvedProperty_congr hns hn).trans hresol)

lemma allProperties_exceeds (hb : bd.bytes < l) (i : List DavRequestedProperty) :
    (allProperties host snapshot (longValues l) i bd).1 = .error .limitExceeded := by
  have hfirst : appendCatalogProperty host snapshot (longValues l) [] .creationDate bd =
      (.error .limitExceeded, bd) := by
    refine bind_of_error ?_
    rw [withRemaining, resolveLiveProperty_long hb]
  have hcatalog : snapshot.catalog.foldlM (appendCatalogProperty host snapshot (longValues l)) [] bd =
      (.error .limitExceeded, bd) := bind_of_error hfirst
  have hall : allProperties host snapshot (longValues l) i bd =
      (.error .limitExceeded, bd) := bind_of_error hcatalog
  rw [hall]

/-- **A large value that was not asked for** leaves no room for an answer that resolves a live property. -/
theorem composedProperties_exceeds {r : DavPropfindRequest} (hr : r.resolves snapshot ≠ []) (hb : bd.bytes < l) :
    (composedProperties host snapshot (longValues l) r bd).1 = .error .limitExceeded := by
  cases r with
  | allProp i => exact allProperties_exceeds hb i
  | propName => exact absurd rfl hr
  | prop p =>
    obtain ⟨property, hm⟩ := exists_mem_of_ne_nil _ hr
    obtain ⟨rq, hrq, hrs⟩ := mem_filterMap.mp hm
    have hloop : (p.foldlM (appendRequested host snapshot (longValues l)) {} bd).1 =
        .error .limitExceeded := by
      refine requested_exceeds hb ⟨rq, hrq, ?_, nofun⟩
      rw [hrs]
      nofun
    cases hrun : p.foldlM (appendRequested host snapshot (longValues l)) {} bd with
    | mk rs b' =>
      rw [hrun] at hloop
      cases hloop
      have hall : requestedProperties host snapshot (longValues l) p bd =
          (.error .limitExceeded, b') := bind_of_error hrun
      exact congrArg Prod.fst hall

/-! ## Sufficient requirements -/

lemma agree_long {r : DavLivePropertyRequirements} (h : r.extensionValues = false) (length : ℕ) :
    Agree r {} (longValues length) := by
  intro g hf
  cases g with
  | extensionValues =>
    rw [DavLivePropertyRequirements.flags, h] at hf
    cases hf
  | _ => rfl

lemma flags_extensionValues : (addRequirement snapshot rq {}).flags .extensionValues = true ↔
    ∃ property, resolvedProperty snapshot rq = some property ∧ propertyGroup property = .extensionValues := by
  unfold addRequirement
  cases hr : resolvedProperty snapshot rq with
  | none => simp [DavLivePropertyRequirements.flags]
  | some property =>
    have hs := (Option.filter_eq_some_iff.mp hr).2
    cases property <;> first
      | exact ⟨fun _ => ⟨_, rfl, rfl⟩, fun _ => hs⟩
      | simp [addLiveRequirement, DavLivePropertyRequirements.flags, propertyGroup]

lemma propertyGroup_of_base (h : isBaseProperty property = true) : propertyGroup property ≠ .extensionValues := by
  intro hg
  cases property <;> first | exact absurd h (by decide) | cases hg

lemma extensionValues_foldl {requested : List DavRequestedProperty} {r : DavLivePropertyRequirements}
    (hr : r.flags .extensionValues = false) :
    (requested.foldl (fun r rq => addRequirement snapshot rq r) r).flags .extensionValues = true ↔
      ∃ property ∈ requested.filterMap (resolvedProperty snapshot), propertyGroup property = .extensionValues := by
  simp only [flags_foldl, hr, flags_extensionValues, Bool.false_eq_true, false_or, mem_filterMap,
    ← exists_and_right]
  rw [exists_comm]
  simp only [and_assoc, exists_and_left]

/-- **Extension values are required** where a property is resolved whose value is one. -/
lemma extensionValues_iff {request : DavPropfindRequest} (hp : request ≠ .propName) :
    (livePropertyRequirements snapshot request).flags .extensionValues = true ↔
      ∃ property ∈ request.resolves snapshot, propertyGroup property = .extensionValues := by
  cases request with
  | propName => exact absurd rfl hp
  | prop named => exact extensionValues_foldl rfl
  | allProp included =>
    refine (extensionValues_foldl rfl).trans ⟨fun ⟨property, hm, hg⟩ => ⟨_, mem_append_right _ hm, hg⟩, ?_⟩
    rintro ⟨property, hm, hg⟩
    refine ⟨property, (mem_append.mp hm).resolve_left fun hm => ?_, hg⟩
    rcases Bool.or_eq_true_iff.mp (mem_filter.mp hm).2 with hb | hc
    · exact propertyGroup_of_base hb hg
    · obtain rfl := of_decide_eq_true hc
      cases hg

lemma locks_of_extensionValues {i : List DavRequestedProperty}
    (h : (livePropertyRequirements snapshot (.allProp i)).flags .extensionValues = true) :
    (livePropertyRequirements snapshot (.allProp i)).flags .locks = true := by
  rcases flags_foldl.mp h with hf | ⟨rq, -, hr⟩
  · cases hf
  obtain ⟨property, hr, hg⟩ := flags_extensionValues.mp hr
  have hs := Bool.or_eq_true_iff.mp (Option.filter_eq_some_iff.mp hr).2
  obtain ⟨p, hp, -⟩ :=
    DavCapabilitySnapshot.exists_package (hs.resolve_left fun hb => propertyGroup_of_base hb hg)
  exact flags_foldl.mpr (.inl (DavCapabilitySnapshot.class1_of_supportsExtension hp))

lemma buildLivePropfindItem_eq (v : DavLivePropertyValues) (hr : Text) (r : DavPropfindRequest)
    {l : DavPropertyMaterializationLimits} (hb : l.maximumBytes ≠ 0) (hp : l.maximumProperties ≠ 0) :
    buildLivePropfindItem host snapshot v hr r l =
      (composedProperties host snapshot v r ⟨l.maximumBytes, l.maximumProperties⟩).1.map
        fun g => ⟨hr, none, g, none⟩ := by
  rw [buildLivePropfindItem, refuse_of_not (not_or.mpr ⟨hb, hp⟩)]
  rfl

/-- **Required groups are enough exactly if** the request resolves no live property, or one whose value is an
extension value.  Otherwise a batch that has an extension value nobody asked for may get an answer refused
which another batch, with the same required groups, gets. -/
theorem livePropertyRequirements_sufficient_iff (host : PropertyHost) (snapshot : DavCapabilitySnapshot)
    (request : DavPropfindRequest) :
    (∀ v v', Agree (livePropertyRequirements snapshot request) v v' → ∀ href limits,
      buildLivePropfindItem host snapshot v href request limits =
        buildLivePropfindItem host snapshot v' href request limits) ↔
    request.resolves snapshot = [] ∨
      ∃ property ∈ request.resolves snapshot, propertyGroup property = .extensionValues := by
  constructor
  · intro hs
    by_contra hneither
    obtain ⟨hsome, hno⟩ := not_or.mp hneither
    have hflag : (livePropertyRequirements snapshot request).extensionValues = false :=
      Bool.eq_false_iff.mpr (mt (extensionValues_iff (by rintro rfl; exact hsome rfl)).mp hno)
    -- room for the answer without values, and one value that is longer than all of it
    have hfits : Affordable .limitExceeded (composedProperties host snapshot {} request) :=
      affordable_composedProperties request
    obtain ⟨n, left, r, hl, hr⟩ := hfits
    have hlong : (composedProperties host snapshot (longValues (n.bytes + 2)) request (n + ⟨1, 1⟩)).1 =
        .error .limitExceeded := composedProperties_exceeds hsome (Nat.lt_succ_self (n.bytes + 1))
    have hanss := hs {} (longValues (n.bytes + 2)) (agree_long hflag _) []
      ⟨n.bytes + 1, n.properties + 1⟩
    rw [buildLivePropfindItem_eq {} [] request (Nat.succ_ne_zero _) (Nat.succ_ne_zero _),
      buildLivePropfindItem_eq (longValues (n.bytes + 2)) [] request (Nat.succ_ne_zero _)
        (Nat.succ_ne_zero _)] at hanss
    have hshort := congrArg Prod.fst (hr ⟨1, 1⟩)
    replace hanss := (congrArg _ hshort).symm.trans (hanss.trans (congrArg _ hlong))
    cases r with
    | ok g => cases hanss
    | error e =>
      cases hanss
      exact hl rfl
  · intro hc v v' ha href limits
    replace hc : request.resolves snapshot = [] ∨
        (livePropertyRequirements snapshot request).flags .extensionValues = true := by
      refine hc.imp_right fun he => (extensionValues_iff ?_).mpr he
      rintro rfl
      obtain ⟨_, hm, -⟩ := he
      cases hm
    have hext : ∀ property ∈ request.resolves snapshot,
        v.extensionValue property = v'.extensionValue property := by
      intro property hm
      rcases hc with hn | hf
      · rw [hn] at hm
        cases hm
      · have hvalue : v.extensionValue = v'.extensionValue := ha .extensionValues hf
        rw [hvalue]
    have hlocks : ∀ i, request = .allProp i → v.activeLocks = v'.activeLocks := by
      rintro i rfl
      rcases hc with hn | hf
      · cases hn
      · exact ha .locks (locks_of_extensionValues hf)
    unfold buildLivePropfindItem
    rw [composedProperties_congr ha hext hlocks]

/-! ## A value that was not asked for -/

/-- Libraries of which the answer below needs no more than sizes. -/
def plainHost : PropertyHost where
  tokenize := fun _ => ⟨[], .eof⟩
  formatCreationDate := fun _ => []
  formatHttpDate := fun _ => none
  parseUri := fun _ => none
  isAbsoluteUrl := fun _ => false
  encodeHref := id
  sizeOfElement := 168
  sizeOfNode := 168
  sizeOfPair := 48

def plainFile : DavCapabilitySnapshot where
  declaration := {
    resource := .file
    versioning := .unsupported
    locking := .disabled
    extensions := fun _ => false
    grammars := []
    class1 := true }
  supportedMethods := ["OPTIONS".toList, "GET".toList, "HEAD".toList, "PROPFIND".toList]
  class1_of_extension := nofun

def named : DavLivePropertyValues := { metadata := { displayName := some "name".toList } }

def namedElement : DavXmlElement :=
  (davPropertyNameElement (canonicalProperty .displayName)).push (.element (longElement 4).head
    [.text "a".toList, .text "b".toList, .text "c".toList, .text "d".toList])

def namedAtLength : DavLivePropertyValues := { named with extensionValue := fun _ => some namedElement }

/-- **A display name is refused** because of an extension value for it, which no group that is required has. -/
theorem livePropertyRequirements_counterexample : ¬ ∀ host snapshot request v v',
    Agree (livePropertyRequirements snapshot request) v v' → ∀ href limits,
      buildLivePropfindItem host snapshot v href request limits =
        buildLivePropfindItem host snapshot v' href request limits := by
  intro ha
  have hsame := ha plainHost plainFile (.prop [canonicalProperty .displayName]) named namedAtLength
    (by rintro (_ | _) <;> intro hf <;> first | rfl | cases hf) "/name".toList ⟨600, 10⟩
  have hok : (buildLivePropfindItem plainHost plainFile named "/name".toList
      (.prop [canonicalProperty .displayName]) ⟨600, 10⟩).toOption.isSome = true := by rfl
  have hrefused : (buildLivePropfindItem plainHost plainFile namedAtLength "/name".toList
      (.prop [canonicalProperty .displayName]) ⟨600, 10⟩).toOption.isSome = false := by rfl
  rw [hsame] at hok
  cases hok

end AsterForge.Webdav
