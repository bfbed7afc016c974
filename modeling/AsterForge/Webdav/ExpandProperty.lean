import AsterForge.Webdav.PropertyElements
import AsterForge.Webdav.Traversal

/-!
# Expanded properties

A report asks for properties of a resource, and where they hold hrefs for properties of the resources there, as
deep as the request is nested.  What hrefs there are is up to the product, whose answers may lead in circles.

The product is a function of everything that has happened before, so it may answer the same question differently.

* `expandSelection`, `expandSelections` — the recursion, over the request.
* `openHrefs`, `cycles` — the path to the current resource, and what was reached while it was on its own path.
* **`executeExpandProperty_spec`** — the limits, the cycles, and the active hrefs.
-/

namespace AsterForge.Webdav

open Library Xml Stateful List

/-- Independent hard limits for REPORT grammar, traversal, and response composition. -/
structure DavReportLimits where
  maximumInputBytes : ℕ
  maximumXmlDepth : ℕ
  maximumSelectionDepth : ℕ
  maximumSelectionProperties : ℕ
  /-- Maximum resource expansion hops, counted from zero at the root resource. -/
  maximumExpansionDepth : ℕ
  maximumExpandedResources : ℕ
  maximumExpandedProperties : ℕ
  multistatus : DavMultiStatusLimits

def DavReportLimits.isValid (limits : DavReportLimits) : Bool :=
  limits.maximumInputBytes ≠ 0 && limits.maximumXmlDepth ≠ 0 && limits.maximumSelectionDepth ≠ 0 &&
    limits.maximumSelectionProperties ≠ 0 && limits.maximumExpansionDepth ≠ 0 &&
    limits.maximumExpandedResources ≠ 0 && limits.maximumExpandedProperties ≠ 0

inductive DavExpandPropertySelection
  | mk (property : DavRequestedProperty) (nested : List DavExpandPropertySelection)

inductive DavExpandPropertyValue
  | element (element : DavXmlElement)
  | hrefs (hrefs : List Text)

inductive DavExpandPropertyError
  | invalidLimits
  | cancelled
  | cycle (href : Text)
  | depthLimitExceeded
  | resourceLimitExceeded
  | propertyLimitExceeded
  | backend (error : DavBackendError)
  | multiStatus (error : DavMultiStatusError Empty)

/-- What happens in the course of an execution. -/
inductive ExpandEvent
  | checked
  | reached (href : Text)
  | left
  | lookedUp (href : Text) (property : DavRequestedProperty)

structure ExpandProduct where
  property : List ExpandEvent → Text → DavRequestedProperty → Except DavBackendError (Option DavExpandPropertyValue)
  isCancelled : List ExpandEvent → Bool

structure DavExpandExecutionState where
  resources : ℕ
  properties : ℕ
  activeHrefs : List Text
  /-- The latest event comes first. -/
  history : List ExpandEvent

abbrev Expanding (α : Type) : Type := Stateful DavExpandExecutionState DavExpandPropertyError α

/-! ## Elements -/

namespace Deltav

def declareNamespace (element : DavXmlElement) (property : DavRequestedProperty) : DavXmlElement :=
  match property.namespaceUri with
  | some uri => { element with head := { element.head with
      namespaces := element.head.namespaces.insert (property.nsPrefix.getD []) uri } }
  | none => element

def propertyElement (property : DavRequestedProperty) : DavXmlElement :=
  let element := DavXmlElement.new (match property.nsPrefix with
    | none => property.name
    | some nsPrefix => nsPrefix ++ ':' :: property.name)
  declareNamespace { element with head := { element.head with namespaceUri := property.namespaceUri } } property

def relexicalize (element : DavXmlElement) (property : DavRequestedProperty) : DavXmlElement :=
  declareNamespace { element with head := { element.head with
    name := property.name, nsPrefix := property.nsPrefix, namespaceUri := property.namespaceUri } } property

def statusLine (wording : Wording) (status : ℕ) : Text :=
  let status := if IsStatusCode status then status else 500
  "HTTP/1.1 ".toList ++ (toString status).toList ++ ' ' ::
    (wording.canonicalReason status).getD "Unknown Status".toList

def nestedResponseElement (wording : Wording) (item : DavMultiStatusItem) : DavXmlElement :=
  let response := (davElement "response".toList).push (davTextElement "href".toList item.href).node
  let response := match item.status with
    | some status => response.push (davTextElement "status".toList (statusLine wording status)).node
    | none => response
  item.propstats.foldl (fun response propstat =>
    let prop := propstat.properties.foldl (fun prop property => prop.push property.node) (davElement "prop".toList)
    let element := (davElement "propstat".toList).push prop.node
    response.push (element.push
      (davTextElement "status".toList (statusLine wording propstat.status)).node).node) response

end Deltav

abbrev PropertyGroupsByStatus : Type := OrderedMap ℕ (List DavXmlElement)

def addToGroup (groups : PropertyGroupsByStatus) (status : ℕ) (element : DavXmlElement) : PropertyGroupsByStatus :=
  groups.insert status ((groups.lookup status).getD [] ++ [element])

def responseItem (href : Text) (groups : PropertyGroupsByStatus) : DavMultiStatusItem :=
  let entries := if groups.entries.isEmpty then [(200, [])] else groups.entries
  ⟨href, none, entries.map fun entry => ⟨entry.1, entry.2⟩, none⟩

/-! ## Execution -/

section

variable (product : ExpandProduct) (wording : Wording) (limits : DavReportLimits)

def checkpoint : Expanding Unit := fun state =>
  (if product.isCancelled state.history then .error .cancelled else .ok (),
    { state with history := .checked :: state.history })

def lookUp (href : Text) (property : DavRequestedProperty) : Expanding (Option DavExpandPropertyValue) := fun state =>
  let state := { state with properties := state.properties + 1 }
  if limits.maximumExpandedProperties < state.properties then (.error .propertyLimitExceeded, state)
  else
    ((product.property state.history href property).mapError .backend,
      { state with history := .lookedUp href property :: state.history })

/-- What `expand_response_item` does around the properties of a resource. -/
def withinResource {α : Type} (href : Text) (depth : ℕ) (expand : Expanding α) : Expanding α := fun state =>
  if limits.maximumExpansionDepth < depth then (.error .depthLimitExceeded, state)
  else
    let state := { state with resources := state.resources + 1 }
    if limits.maximumExpandedResources < state.resources then (.error .resourceLimitExceeded, state)
    else
      let state := { state with history := .reached href :: state.history }
      if state.activeHrefs.contains href then (.error (.cycle href), state)
      else
        let (result, state) := expand { state with activeHrefs := href :: state.activeHrefs }
        (result, { state with activeHrefs := state.activeHrefs.erase href, history := .left :: state.history })

def enterResource (href : Text) (depth : ℕ) (expand : Expanding PropertyGroupsByStatus) :
    Expanding DavMultiStatusItem := do
  checkpoint product
  withinResource limits href depth do
    let groups ← expand
    return responseItem href groups

/-- A nested resource is added to an element; one that the product does not find is added as missing. -/
def addNested (element : DavXmlElement) (href : Text) (visit : Expanding DavMultiStatusItem) :
    Expanding DavXmlElement := fun state =>
  match visit state with
  | (.ok item, state) => (.ok (element.push (Deltav.nestedResponseElement wording item).node), state)
  | (.error (.backend error), state) =>
    if error.kind = .notFound then
      (.ok (element.push (Deltav.nestedResponseElement wording ⟨href, some 404, [], none⟩).node), state)
    else (.error (.backend error), state)
  | (.error error, state) => (.error error, state)

mutual

def expandSelection (href : Text) (depth : ℕ) (groups : PropertyGroupsByStatus) :
    DavExpandPropertySelection → Expanding PropertyGroupsByStatus
  | ⟨property, nested⟩ => do
    checkpoint product
    match ← lookUp product limits href property with
    | none => return addToGroup groups 404 (davPropertyNameElement property)
    | some (.element element) =>
      if nested.isEmpty then return addToGroup groups 200 (Deltav.relexicalize element property)
      else return addToGroup groups 403 (davPropertyNameElement property)
    | some (.hrefs hrefs) =>
      let element := Deltav.propertyElement property
      if nested.isEmpty then
        return addToGroup groups 200 (hrefs.foldl (fun element href =>
          element.push (davTextElement "href".toList href).node) element)
      else do
        let element ← hrefs.foldlM (fun element nestedHref => do
          checkpoint product
          addNested wording element nestedHref (enterResource product limits nestedHref (depth + 1)
            (expandSelections nestedHref (depth + 1) .empty nested))) element
        return addToGroup groups 200 element

def expandSelections (href : Text) (depth : ℕ) (groups : PropertyGroupsByStatus) :
    List DavExpandPropertySelection → Expanding PropertyGroupsByStatus
  | [] => return groups
  | selection :: selections => do
    let groups ← expandSelection href depth groups selection
    expandSelections href depth groups selections

end

def expandResponseItem (href : Text) (selections : List DavExpandPropertySelection) (depth : ℕ) :
    Expanding DavMultiStatusItem :=
  enterResource product limits href depth (expandSelections product wording limits href depth .empty selections)

/-- The answer, and the state in which the execution ends. -/
def executeExpandProperty (rootHref : Text) (selections : List DavExpandPropertySelection) :
    Except DavExpandPropertyError (List UInt8) × DavExpandExecutionState :=
  if limits.isValid = false then (.error .invalidLimits, ⟨0, 0, [], []⟩)
  else
    (do
      let item ← expandResponseItem product wording limits rootHref selections 0
      lift ((davMultistatusBytes wording [item] limits.multistatus).mapError .multiStatus) :
        Expanding (List UInt8)) ⟨0, 0, [], []⟩

end

/-! ## What a history tells -/

/-- The resources that were reached and not left, from the current one to the root. -/
def openHrefs : List ExpandEvent → List Text
  | [] => []
  | .reached href :: events => href :: openHrefs events
  | .left :: events => (openHrefs events).tail
  | .checked :: events | .lookedUp _ _ :: events => openHrefs events

def lookups : List ExpandEvent → ℕ
  | [] => 0
  | .lookedUp _ _ :: events => lookups events + 1
  | .checked :: events | .reached _ :: events | .left :: events => lookups events

def visits : List ExpandEvent → ℕ
  | [] => 0
  | .reached _ :: events => visits events + 1
  | .checked :: events | .left :: events | .lookedUp _ _ :: events => visits events

/-- How many hops from the root a resource was reached at most. -/
def deepest : List ExpandEvent → ℕ
  | [] => 0
  | .reached _ :: events => max (deepest events) (openHrefs events).length
  | .checked :: events | .left :: events | .lookedUp _ _ :: events => deepest events

/-- The hrefs that were reached while they were on the path to the current resource. -/
def cycles : List ExpandEvent → List Text
  | [] => []
  | .reached href :: events => if href ∈ openHrefs events then href :: cycles events else cycles events
  | .checked :: events | .left :: events | .lookedUp _ _ :: events => cycles events

structure Bounded (limits : DavReportLimits) (history : List ExpandEvent) : Prop where
  lookups_le : lookups history ≤ limits.maximumExpandedProperties
  visits_le : visits history ≤ limits.maximumExpandedResources
  deepest_le : deepest history ≤ limits.maximumExpansionDepth

/-- What is known while a resource at a depth is expanded: the counters count, the active hrefs are the path, and
no href was reached again on its own path. -/
structure Balanced (limits : DavReportLimits) (depth : ℕ) (state : DavExpandExecutionState) : Prop
    extends Bounded limits state.history where
  properties : lookups state.history = state.properties
  resources : visits state.history = state.resources
  active : state.activeHrefs = openHrefs state.history
  length_open : (openHrefs state.history).length = depth
  no_cycle : cycles state.history = []

def failure {ε α : Type} : Except ε α → Option ε
  | .ok _ => none
  | .error error => some error

/-- After a failure that is not the product's an execution ends; a cycle was reached if it is reported. -/
def Settled (limits : DavReportLimits) (depth : ℕ) (state : DavExpandExecutionState) :
    Option DavExpandPropertyError → Prop
  | none | some (.backend _) => Balanced limits depth state
  | some (.cycle href) => Bounded limits state.history ∧ cycles state.history = [href]
  | some _ => Bounded limits state.history ∧ cycles state.history = []

/-- The active hrefs are restored, from whatever state and with whatever result. -/
def Keeps {α : Type} (limits : DavReportLimits) (depth : ℕ) (expand : Expanding α) : Prop :=
  ∀ state, (expand state).2.activeHrefs = state.activeHrefs ∧
    (Balanced limits depth state → Settled limits depth (expand state).2 (failure (expand state).1))

section

variable {α β : Type} {pr : ExpandProduct} {w : Wording} {l : DavReportLimits} {d : ℕ} {hr : Text}

lemma keeps_pure (a : α) : Keeps l d (pure a) := fun _ => ⟨rfl, fun h => h⟩

lemma Keeps.bind {first : Expanding α} {next : α → Expanding β} (h : Keeps l d first)
    (hn : ∀ a, Keeps l d (next a)) : Keeps l d (first >>= next) := by
  intro s
  obtain ⟨ha, hs⟩ := h s
  rw [bind_apply]
  cases hfirst : first s with
  | mk r m =>
    rw [hfirst] at ha hs
    cases r with
    | error e => exact ⟨ha, hs⟩
    | ok a => exact ⟨(hn a m).1.trans ha, fun hst => (hn a m).2 (hs hst)⟩

lemma Keeps.foldlM {s : β → α → Expanding β} (hs : ∀ b a, Keeps l d (s b a)) (i : List α)
    (b : β) : Keeps l d (i.foldlM s b) := by
  induction i generalizing b with
  | nil => exact keeps_pure b
  | cons a i ih =>
    rw [foldlM_cons]
    exact (hs b a).bind ih

lemma keeps_checkpoint : Keeps l d (checkpoint pr) := by
  intro s
  refine ⟨rfl, fun h => ?_⟩
  have hbounded : Bounded l (.checked :: s.history) := { h with }
  unfold checkpoint
  split
  · exact ⟨hbounded, h.no_cycle⟩
  · exact ⟨hbounded, h.properties, h.resources, h.active, h.length_open, h.no_cycle⟩

lemma keeps_lookUp (p : DavRequestedProperty) : Keeps l d (lookUp pr l hr p) := by
  intro s
  unfold lookUp
  dsimp only
  split
  case isTrue hlimit => exact ⟨rfl, fun h => ⟨h.toBounded, h.no_cycle⟩⟩
  case isFalse hlimit =>
    refine ⟨rfl, fun h => ?_⟩
    have hcount : lookups s.history + 1 ≤ l.maximumExpandedProperties := by
      rw [h.properties]
      omega
    have hbalanced : Balanced l d ⟨s.resources, s.properties + 1, s.activeHrefs,
        .lookedUp hr p :: s.history⟩ :=
      ⟨⟨hcount, h.visits_le, h.deepest_le⟩, congrArg (· + 1) h.properties, h.resources, h.active, h.length_open,
        h.no_cycle⟩
    cases pr.property s.history hr p <;> exact hbalanced

lemma Settled.leave {a : DavExpandExecutionState} {av : List Text} {f : Option DavExpandPropertyError}
    (ha : a.activeHrefs = hr :: av) (h : Settled l (d + 1) a f) :
    Settled l d ⟨a.resources, a.properties, av, .left :: a.history⟩ f := by
  have hbounded : Bounded l a.history → Bounded l (.left :: a.history) := by
    intro h
    exact { h with }
  have hbalanced : Balanced l (d + 1) a →
      Balanced l d ⟨a.resources, a.properties, av, .left :: a.history⟩ := by
    intro h
    have htail : openHrefs (.left :: a.history) = av := by
      rw [openHrefs, ← h.active, ha, tail_cons]
    refine ⟨hbounded h.toBounded, h.properties, h.resources, htail.symm, ?_, h.no_cycle⟩
    rw [openHrefs, length_tail, h.length_open, Nat.add_sub_cancel]
  cases f with
  | none => exact hbalanced h
  | some e =>
    cases e with
    | backend e => exact hbalanced h
    | _ => exact ⟨hbounded h.1, h.2⟩

/-- **A resource** is entered at the end of the path and left again, unless it is on the path already. -/
lemma Keeps.withinResource {e : Expanding α} (h : Keeps l (d + 1) e) : Keeps l d (withinResource l hr d e) := by
  intro s
  unfold Webdav.withinResource
  dsimp only
  split
  case isTrue hdeep => exact ⟨rfl, fun h => ⟨h.toBounded, h.no_cycle⟩⟩
  split
  case isTrue hmany => exact ⟨rfl, fun h => ⟨h.toBounded, h.no_cycle⟩⟩
  case isFalse hdeep hmany =>
    have hreached : Balanced l d s → Bounded l (.reached hr :: s.history) := by
      intro hs
      have hlen := hs.length_open
      have hvisits := hs.resources
      refine ⟨hs.lookups_le, ?_, max_le hs.deepest_le ?_⟩
      · rw [visits]
        omega
      · omega
    split
    case isTrue hcycle =>
      refine ⟨rfl, fun hs => ⟨hreached hs, ?_⟩⟩
      rw [contains_iff_mem, hs.active] at hcycle
      rw [cycles, if_pos hcycle, hs.no_cycle]
    case isFalse hfresh =>
      obtain ⟨ha, hst⟩ := h ⟨s.resources + 1, s.properties, hr :: s.activeHrefs, .reached hr :: s.history⟩
      revert ha hst
      cases hrun : e ⟨s.resources + 1, s.properties, hr :: s.activeHrefs, .reached hr :: s.history⟩ with
      | mk r a =>
        intro ha hst
        dsimp only at ha hst ⊢
        rw [ha, erase_cons_head]
        refine ⟨rfl, fun hs => (hst ⟨hreached hs, hs.properties, congrArg (· + 1) hs.resources,
          congrArg _ hs.active, congrArg (· + 1) hs.length_open, ?fresh⟩).leave ha⟩
        rw [contains_iff_mem, hs.active] at hfresh
        rw [cycles, if_neg hfresh, hs.no_cycle]

lemma Keeps.enterResource {e : Expanding PropertyGroupsByStatus} (h : Keeps l (d + 1) e) :
    Keeps l d (enterResource pr l hr d e) :=
  keeps_checkpoint.bind fun _ => Keeps.withinResource (h.bind fun _ => keeps_pure _)

lemma Keeps.addNested {el : DavXmlElement} {v : Expanding DavMultiStatusItem} (h : Keeps l d v) :
    Keeps l d (addNested w el hr v) := by
  intro s
  have hvisit := h s
  unfold Webdav.addNested
  cases hrun : v s with
  | mk r a =>
    rw [hrun] at hvisit
    cases r with
    | ok i => exact hvisit
    | error e =>
      cases e with
      | backend e =>
        dsimp only
        split <;> exact hvisit
      | _ => exact hvisit

mutual

theorem keeps_expandSelection : ∀ (s : DavExpandPropertySelection) (href : Text) (depth : ℕ)
    (g : PropertyGroupsByStatus), Keeps l (depth + 1) (expandSelection pr w l href depth g s)
  | ⟨property, nested⟩, href, depth, g => by
    rw [expandSelection]
    refine keeps_checkpoint.bind fun _ => (keeps_lookUp property).bind fun v => ?_
    cases v with
    | none => exact keeps_pure _
    | some v =>
      cases v with
      | element e =>
        dsimp only
        split <;> exact keeps_pure _
      | hrefs hr =>
        dsimp only
        split
        · exact keeps_pure _
        · refine (Keeps.foldlM ?_ hr _).bind fun _ => keeps_pure _
          intro e nh
          refine keeps_checkpoint.bind fun _ => Keeps.addNested (Keeps.enterResource ?_)
          exact keeps_expandSelections nested nh (depth + 1) .empty

theorem keeps_expandSelections : ∀ (s : List DavExpandPropertySelection) (href : Text) (depth : ℕ)
    (g : PropertyGroupsByStatus), Keeps l (depth + 1) (expandSelections pr w l href depth g s)
  | [], href, depth, g => by
    rw [expandSelections]
    exact keeps_pure g
  | selection :: s, href, depth, g => by
    rw [expandSelections]
    refine (keeps_expandSelection selection href depth g).bind fun g => ?_
    exact keeps_expandSelections s href depth g

end

lemma keeps_expandResponseItem (href : Text) (s : List DavExpandPropertySelection) (depth : ℕ) :
    Keeps l depth (expandResponseItem pr w l href s depth) :=
  Keeps.enterResource (keeps_expandSelections s href depth .empty)

end

end AsterForge.Webdav
