import AsterForge.Core.Identity
import AsterForge.Library.Base64
import AsterForge.Library.Bytes

/-!
# File Provider identifiers

The platform keeps one string for every item in a database that outlives the extension: a version
marker and the three identity strings of the item's key, base64-encoded and joined by dots.  The
platform also has three reserved names of its own, for containers that are no items.

The base64 engine comes from outside, so it is a parameter here: a codec whose decoder accepts
only canonical text, with an alphabet that has no dot.

* **`parse_eq_item`** — the text that parses as an item is the text its key encodes to, and no
  other.
* **`identifier_codec`** — the codec: both round trips, and no key takes a reserved name.
-/

namespace AsterForge.MacosBridge

open AsterForge.Core Library List

/-- Errors produced by identifier, enumeration, session, and FFI mechanics: the variants that a modelled
function builds. -/
inductive MacosBridgeError
  | invalidIdentifier (reason : String)
  | invalidItemVersion (reason : String)
  | invalidBackendResponse (reason : String)
  | unsupportedSystemContainer
  deriving DecidableEq

/-! ## The grammar -/

inductive MacosFileProviderSystemContainer
  | root
  | workingSet
  | trash
  deriving DecidableEq

def MacosFileProviderSystemContainer.identifier : MacosFileProviderSystemContainer → String
  | .root => "NSFileProviderRootContainerItemIdentifier"
  | .workingSet => "NSFileProviderWorkingSetContainerItemIdentifier"
  | .trash => "NSFileProviderTrashContainerItemIdentifier"

def versionMarker : String := "afcf1."

def fieldCount : ℕ := 3

def maxIdentityFieldBytes : ℕ := 1024

def maxFileProviderIdentifierBytes : ℕ := 4128

inductive MacosFileProviderIdentifier
  | item (encoded : String) (key : CloudItemKey)
  | system (container : MacosFileProviderSystemContainer)
  deriving DecidableEq

def invalid (reason : String) : MacosBridgeError := .invalidIdentifier reason

def identifierFields (key : CloudItemKey) : List String :=
  [key.scope.namespaceId.value, key.scope.rootId.value, key.itemId.value]

def identifierText (engine : TextCodec) (fields : List String) : String :=
  versionMarker ++ ".".intercalate (fields.map fun value => engine.encode (utf8Bytes value))

namespace MacosFileProviderIdentifier

def encode (engine : TextCodec) (key : CloudItemKey) : Except MacosBridgeError MacosFileProviderIdentifier :=
  if (identifierFields key).any fun field => maxIdentityFieldBytes < field.utf8ByteSize then
    .error (invalid "identifier field exceeds the accepted byte length")
  else
    let encoded := identifierText engine (identifierFields key)
    if maxFileProviderIdentifierBytes < encoded.utf8ByteSize then
      .error (invalid "identifier exceeds the accepted byte length")
    else .ok (.item encoded key)

def asStr : MacosFileProviderIdentifier → String
  | .item encoded _ => encoded
  | .system container => container.identifier

end MacosFileProviderIdentifier

def stripMarker (marker text : String) : Option String :=
  (marker.toList.isPrefixOf? text.toList).map String.ofList

def splitOnDot (text : String) : List String := (text.toList.splitOn '.').map String.ofList

def decodeField (engine : TextCodec) (field : String) : Except MacosBridgeError String :=
  if field = "" then .error (invalid "identifier field must not be empty")
  else
    match engine.decode field with
    | none => .error (invalid "identifier field is not canonical base64url")
    | some bytes =>
      if maxIdentityFieldBytes < bytes.length then
        .error (invalid "identifier field exceeds the accepted byte length")
      else
        match fromUtf8 bytes with
        | none => .error (invalid "identifier field is not valid UTF-8")
        | some text =>
          if engine.encode (utf8Bytes text) ≠ field then
            .error (invalid "identifier field is not canonical base64url")
          else .ok text

/-- A value that is there. -/
def present {α : Type} (reason : String) : Option α → Except MacosBridgeError α
  | some value => .ok value
  | none => .error (invalid reason)

def identity {field : String} (reason : String) (value : String) :
    Except MacosBridgeError (StringIdentity field) :=
  present reason (StringIdentity.new value).toOption

namespace MacosFileProviderIdentifier

def parse (engine : TextCodec) (value : String) : Except MacosBridgeError MacosFileProviderIdentifier :=
  if maxFileProviderIdentifierBytes < value.utf8ByteSize then
    .error (invalid "identifier exceeds the accepted byte length")
  else if value = MacosFileProviderSystemContainer.root.identifier then .ok (.system .root)
  else if value = MacosFileProviderSystemContainer.workingSet.identifier then
    .ok (.system .workingSet)
  else if value = MacosFileProviderSystemContainer.trash.identifier then .ok (.system .trash)
  else do
    let payload ← present "identifier prefix or version is unsupported"
      (stripMarker versionMarker value)
    let fields := splitOnDot payload
    if fields.length ≠ fieldCount then
      .error (invalid "identifier must contain exactly three encoded fields")
    else
      let decoded ← fields.mapM (decodeField engine)
      let namespaceText ← present "identifier namespace is missing" decoded[0]?
      let rootText ← present "identifier root is missing" decoded[1]?
      let itemText ← present "identifier item is missing" decoded[2]?
      let namespaceId ← identity "identifier namespace must not be empty" namespaceText
      let rootId ← identity "identifier root must not be empty" rootText
      let itemId ← identity "identifier item must not be empty" itemText
      return .item value ⟨⟨namespaceId, rootId⟩, itemId⟩

end MacosFileProviderIdentifier

/-! ## Pieces of text -/

lemma stripMarker_eq_some {m t r : String} : stripMarker m t = some r ↔ m ++ r = t := by
  simp only [stripMarker, Option.map_eq_some_iff, isPrefixOf?_eq_some_iff_append_eq]
  constructor
  · rintro ⟨c, hc, rfl⟩
    rw [← String.toList_inj, String.toList_append, String.toList_ofList, hc]
  · rintro rfl
    exact ⟨r.toList, String.toList_append.symm, String.ofList_toList⟩

lemma intercalate_splitOnDot (t : String) : ".".intercalate (splitOnDot t) = t := by
  rw [← String.toList_inj, String.toList_intercalate, splitOnDot, map_map]
  have hid : String.toList ∘ String.ofList = id := funext fun c => String.toList_ofList
  rw [hid, map_id]
  exact intercalate_splitOn '.'

lemma splitOnDot_intercalate {p : List String} (hd : ∀ pc ∈ p, '.' ∉ pc.toList)
    (hp : p ≠ []) : splitOnDot (".".intercalate p) = p := by
  have hsplit : (['.'].intercalate (p.map String.toList)).splitOn '.' = p.map String.toList := by
    refine splitOn_intercalate '.' ?_ (by simpa using hp)
    simpa using hd
  have hid : String.ofList ∘ String.toList = id := funext fun text => String.ofList_toList
  rw [splitOnDot, String.toList_intercalate]
  exact (congrArg _ hsplit).trans (by rw [map_map, hid, map_id])

/-! ## What is encoded and what is parsed -/

lemma identifierText_ne_reserved (e : TextCodec) (f : List String) (c : MacosFileProviderSystemContainer) :
    identifierText e f ≠ c.identifier := by
  intro h
  have hhead := congrArg (fun t : String => t.toList.head?) h
  rw [identifierText, String.toList_append] at hhead
  cases c <;> cases hhead

section

variable {engine : TextCodec} (hcanonical : engine.Canonical)
  (hdot : ∀ bytes, '.' ∉ (engine.encode bytes).toList) {fl text r : String} {key : CloudItemKey}

include hcanonical in
lemma decodeField_eq_ok : decodeField engine fl = .ok text ↔
    text ≠ "" ∧ text.utf8ByteSize ≤ maxIdentityFieldBytes ∧
      engine.encode (utf8Bytes text) = fl := by
  have hsize : (utf8Bytes text).length = text.utf8ByteSize := rfl
  constructor
  · intro h
    unfold decodeField at h
    split at h
    · cases h
    · rename_i hfield
      split at h
      · cases h
      · rename_i bytes hbytes
        split at h
        · cases h
        · rename_i hs
          split at h
          · cases h
          · rename_i decoded htext
            split at h
            · cases h
            · rename_i hreencoded
              cases h
              rw [not_not] at hreencoded
              rw [fromUtf8_eq_some] at htext
              subst htext
              refine ⟨?_, not_lt.mp hs, hreencoded⟩
              rintro rfl
              exact hfield (hreencoded.symm.trans hcanonical.encode_nil)
  · rintro ⟨hne, hs, rfl⟩
    have hbytes : utf8Bytes text ≠ [] := fun hn => hne (utf8Bytes_injective hn)
    have hread : fromUtf8 (utf8Bytes text) = some text := fromUtf8_eq_some.mpr rfl
    rw [decodeField, if_neg (hcanonical.encode_ne_empty hbytes), hcanonical.decode_encode]
    simp [hsize, not_lt.mpr hs, hread]

include hcanonical in
lemma mapM_decodeField {f t : List String} : f.mapM (decodeField engine) = .ok t ↔
    (∀ text ∈ t, text ≠ "" ∧ text.utf8ByteSize ≤ maxIdentityFieldBytes) ∧
      (t.map fun text => engine.encode (utf8Bytes text)) = f := by
  induction f generalizing t with
  | nil =>
    cases t <;> simp
  | cons fl f ih =>
    rw [mapM_cons]
    constructor
    · intro h
      cases hf : decodeField engine fl with
      | error e => simp [hf] at h
      | ok text =>
        cases hfields : f.mapM (decodeField engine) with
        | error e => simp [hf, hfields] at h
        | ok r =>
          rw [hf, hfields, ok_bind] at h
          cases h
          obtain ⟨hne, hs, he⟩ := (decodeField_eq_ok hcanonical).mp hf
          obtain ⟨hr, hm⟩ := ih.mp hfields
          exact ⟨forall_mem_cons.mpr ⟨⟨hne, hs⟩, hr⟩, by rw [map_cons, he, hm]⟩
    · rintro ⟨ht, hm⟩
      cases t with
      | nil => cases hm
      | cons text r =>
        rw [map_cons, cons.injEq] at hm
        obtain ⟨hf, hr⟩ := hm
        rw [forall_mem_cons] at ht
        have hhead := (decodeField_eq_ok hcanonical).mpr ⟨ht.1.1, ht.1.2, hf⟩
        rw [hhead, ih.mpr ⟨ht.2, hr⟩]
        rfl

lemma present_eq_ok {α : Type} {x : Option α} {a : α} : present r x = .ok a ↔ x = some a := by
  cases x <;> simp [present]

lemma identity_eq_ok {v : String} {id : StringIdentity fl} : identity r v = .ok id ↔ id.value = v := by
  obtain ⟨own, ho⟩ := id
  by_cases hvalue : v ≠ ""
  · simp [identity, StringIdentity.new, hvalue, present, Except.toOption, eq_comm]
  · simp only [identity, StringIdentity.new, dif_neg hvalue, present, Except.toOption,
      reduceCtorEq, false_iff]
    rintro rfl
    exact hvalue ho

open MacosFileProviderIdentifier

lemma encode_eq_ok {i : MacosFileProviderIdentifier} : encode engine key = .ok i ↔
    (∀ fl ∈ identifierFields key, fl.utf8ByteSize ≤ maxIdentityFieldBytes) ∧
      (identifierText engine (identifierFields key)).utf8ByteSize ≤ maxFileProviderIdentifierBytes ∧
      i = .item (identifierText engine (identifierFields key)) key := by
  have hany : ((identifierFields key).any fun fl =>
      maxIdentityFieldBytes < fl.utf8ByteSize) = true ↔
        ¬ ∀ fl ∈ identifierFields key, fl.utf8ByteSize ≤ maxIdentityFieldBytes := by
    simp
  rw [encode]
  by_cases hfields : ∀ fl ∈ identifierFields key, fl.utf8ByteSize ≤ maxIdentityFieldBytes
  · rw [if_neg (hany.not.mpr (not_not.mpr hfields))]
    by_cases hlen : maxFileProviderIdentifierBytes <
        (identifierText engine (identifierFields key)).utf8ByteSize
    · simp [hlen, hlen.not_ge]
    · simp only [hlen, if_false, Except.ok.injEq, not_lt.mp hlen, true_and]
      exact ⟨fun h => ⟨hfields, h.symm⟩, fun h => h.2.symm⟩
  · rw [if_pos (hany.mpr hfields)]
    simp [hfields]

include hcanonical hdot in
/-- **The text that parses as an item** is the text its key encodes to. -/
theorem parse_eq_item {e : String} : parse engine text = .ok (.item e key) ↔
    e = text ∧ encode engine key = .ok (.item text key) := by
  constructor
  · intro h
    unfold parse at h
    split at h
    · cases h
    rename_i hl
    split at h
    · cases h
    split at h
    · cases h
    split at h
    · cases h
    simp only [bind_eq_ok, present_eq_ok, stripMarker_eq_some] at h
    obtain ⟨p, rfl, h⟩ := h
    split at h
    · cases h
    rename_i hcount
    rw [not_not] at hcount
    simp only [bind_eq_ok, present_eq_ok, mapM_decodeField hcanonical, identity_eq_ok,
      except_pure, Except.ok.injEq, MacosFileProviderIdentifier.item.injEq] at h
    obtain ⟨t, ⟨htx, hm⟩, n, hn, r, hr, i, hi, nId, hni, rId, hri, iId, hii, rfl, rfl⟩ := h
    have hthree : t.length = fieldCount := by
      rw [← hcount, ← hm, length_map]
    obtain ⟨first, s, th, rfl⟩ := length_eq_three.mp hthree
    cases hn
    cases hr
    cases hi
    have hfields : identifierFields ⟨⟨nId, rId⟩, iId⟩ = [n, r, i] := by
      rw [identifierFields, hni, hri, hii]
    have ht : identifierText engine (identifierFields ⟨⟨nId, rId⟩, iId⟩) = versionMarker ++ p := by
      rw [identifierText, hfields, hm, intercalate_splitOnDot]
    refine ⟨rfl, encode_eq_ok.mpr ⟨?_, ?_, ?_⟩⟩
    · rw [hfields]
      exact fun text ht => (htx text ht).2
    · rw [ht]
      exact not_lt.mp hl
    · rw [ht]
  · rintro ⟨rfl, h⟩
    obtain ⟨hs, hl, hit⟩ := encode_eq_ok.mp h
    obtain ⟨⟨⟨n, hn⟩, ⟨r, hr⟩⟩, ⟨i, hi⟩⟩ := key
    rw [MacosFileProviderIdentifier.item.injEq] at hit
    obtain ⟨rfl, -⟩ := hit
    have hresv := identifierText_ne_reserved engine [n, r, i]
    have hpay : stripMarker versionMarker (identifierText engine [n, r, i]) =
        some (".".intercalate ([n, r, i].map fun v => engine.encode (utf8Bytes v))) :=
      stripMarker_eq_some.mpr rfl
    have hsplit : splitOnDot
        (".".intercalate ([n, r, i].map fun v => engine.encode (utf8Bytes v))) =
          [n, r, i].map fun v => engine.encode (utf8Bytes v) := by
      refine splitOnDot_intercalate ?_ (by simp)
      intro pc hp
      obtain ⟨v, -, rfl⟩ := mem_map.mp hp
      exact hdot _
    have htx : ∀ text ∈ [n, r, i], text ≠ "" ∧ text.utf8ByteSize ≤ maxIdentityFieldBytes := by
      intro text ht
      refine ⟨?_, hs text ht⟩
      simp only [mem_cons, not_mem_nil, or_false] at ht
      rcases ht with rfl | rfl | rfl
      · exact hn
      · exact hr
      · exact hi
    have hdec := (mapM_decodeField hcanonical).mpr ⟨htx, rfl⟩
    have hlong : ¬ maxFileProviderIdentifierBytes <
        (identifierText engine [n, r, i]).utf8ByteSize := not_lt.mpr hl
    have hcount : ([n, r, i].map fun v => engine.encode (utf8Bytes v)).length =
        fieldCount := rfl
    rw [identifierFields, parse, if_neg hlong, if_neg (hresv .root),
      if_neg (hresv .workingSet), if_neg (hresv .trash), hpay, present, ok_bind,
      hsplit, if_neg (not_not.mpr hcount), hdec, ok_bind]
    simp only [bind_eq_ok, present_eq_ok, identity_eq_ok, except_pure]
    exact ⟨n, rfl, r, rfl, i, rfl, ⟨n, hn⟩, rfl, ⟨r, hr⟩, rfl, ⟨i, hi⟩, rfl, rfl⟩

include hcanonical hdot in
/-- **The identifier codec.**  For every engine that is canonical and spells bytes without dots:
parsing what a key encodes to gives the key back, what parses as an item is what its key encodes
to, and no key takes the name of a system container. -/
theorem identifier_codec : (∀ key identifier, encode engine key = .ok identifier →
      ∃ encoded, identifier = .item encoded key ∧ parse engine encoded = .ok (.item encoded key)) ∧
    (∀ text encoded key, parse engine text = .ok (.item encoded key) →
      encoded = text ∧ encode engine key = .ok (.item text key)) ∧
    (∀ key identifier container, encode engine key = .ok identifier →
      identifier.asStr ≠ MacosFileProviderSystemContainer.identifier container) := by
  refine ⟨fun key identifier h => ?_, fun text encoded key h => ?_, fun key identifier container h => ?_⟩
  · obtain ⟨-, -, rfl⟩ := encode_eq_ok.mp h
    exact ⟨_, rfl, (parse_eq_item hcanonical hdot).mpr ⟨rfl, h⟩⟩
  · exact (parse_eq_item hcanonical hdot).mp h
  · obtain ⟨-, -, rfl⟩ := encode_eq_ok.mp h
    exact identifierText_ne_reserved engine _ container

end

/-- The codec with the bridge's own engine: the key of three one-letter strings. -/
theorem identifier_codec_urlSafeNoPad :
    MacosFileProviderIdentifier.parse urlSafeNoPad "afcf1.bg.cg.aQ" =
      .ok (.item "afcf1.bg.cg.aQ" ⟨⟨⟨"n", by decide⟩, ⟨"r", by decide⟩⟩, ⟨"i", by decide⟩⟩) := by
  obtain ⟨e, he, hp⟩ :=
    (identifier_codec urlSafeNoPad_canonical urlSafeNoPad_dot).1
      ⟨⟨⟨"n", by decide⟩, ⟨"r", by decide⟩⟩, ⟨"i", by decide⟩⟩
      (.item "afcf1.bg.cg.aQ" ⟨⟨⟨"n", by decide⟩, ⟨"r", by decide⟩⟩, ⟨"i", by decide⟩⟩)
      (by decide)
  cases he
  exact hp

end AsterForge.MacosBridge
