import AsterForge.Library.Bytes
import AsterForge.Windows.Error
import Mathlib.Algebra.Order.BigOperators.Group.List

/-!
# File identities

Windows attaches up to 4096 bytes to every placeholder and hands them back with each callback.
The adapter stores the item's key there: a magic number, a format version, a table of three
little-endian lengths, and the three identity strings.

Writing such an envelope is easy to state; reading one starts from bytes that anything may have
written, and cuts them at positions they declare.  `decodeBytes` is the decoder with its panics in
place, and everything follows from one equation about it:

* **`decodeBytes_eq_ok`** — the bytes a key is decoded from are the envelope of that key.
* **`decodeBytes_ne_panicked`** — no bytes make the decoder leave them.
* **`fileIdentity_codec`** — the codec: writing and reading are inverse on all accepted values, and
  writing fails for size alone.
-/

namespace AsterForge.Windows

open AsterForge.Core Library List

/-! ## The envelope -/

/-- Maximum `FileIdentity` size accepted by Windows Cloud Files. -/
def cfapiFileIdentityMaxBytes : ℕ := 4096

/-- The bytes of `AFCF`. -/
def magic : List UInt8 := [0x41, 0x46, 0x43, 0x46]

def formatVersion : UInt8 := 1

def headerLen : ℕ := magic.length + 1 + 3 * 4

/-- The largest `u32`. -/
def u32Max : ℕ := 2 ^ 32 - 1

def identityFields (key : CloudItemKey) : List (List UInt8) :=
  [utf8Bytes key.scope.namespaceId.value, utf8Bytes key.scope.rootId.value, utf8Bytes key.itemId.value]

def invalid (reason : String) : WindowsCloudFilesError := .invalidFileIdentity reason

def validateSize (actual : ℕ) : Except WindowsCloudFilesError Unit :=
  if cfapiFileIdentityMaxBytes < actual then
    .error (.fileIdentityTooLarge actual cfapiFileIdentityMaxBytes)
  else .ok ()

/-- The error of a length that a `usize` cannot hold. -/
def tooLarge : WindowsCloudFilesError := .fileIdentityTooLarge usizeMax cfapiFileIdentityMaxBytes

def lengthBytes (field : List UInt8) : Except WindowsCloudFilesError (List UInt8) :=
  if field.length ≤ u32Max then .ok (leBytes 4 field.length)
  else .error (.fileIdentityTooLarge field.length cfapiFileIdentityMaxBytes)

def encodeBytes (key : CloudItemKey) : Except WindowsCloudFilesError (List UInt8) := do
  let fields := identityFields key
  let payloadLen ← ((fields.map List.length).foldlM (checkedAdd usizeMax) 0).elim (.error tooLarge) .ok
  let totalLen ← (checkedAdd usizeMax headerLen payloadLen).elim (.error tooLarge) .ok
  validateSize totalLen
  let table ← fields.mapM lengthBytes
  return magic ++ formatVersion :: (table.flatten ++ fields.flatten)

def decodeLength (bytes : List UInt8) (index : ℕ) : Outcome WindowsCloudFilesError ℕ := do
  let start := magic.length + 1 + index * 4
  let raw ← sliceBetween bytes start (start + 4)
  if raw.length = 4 then .ok (leValue raw) else .error (invalid "identity length table is truncated")

/-- The strings of the given lengths, from `offset` on. -/
def decodeFields (bytes : List UInt8) : ℕ → List ℕ → Outcome WindowsCloudFilesError (List String)
  | _, [] => .ok []
  | offset, length :: lengths => do
    let stop ← addWithin usizeMax offset length
    let raw ← sliceBetween bytes offset stop
    let value ← Outcome.okOr (invalid "identity field is not UTF-8") (fromUtf8 raw)
    let values ← decodeFields bytes stop lengths
    return value :: values

def fromCore {α : Type} : Except CloudFilesCoreError α → Outcome WindowsCloudFilesError α
  | .ok value => .ok value
  | .error error => .error (.core error)

def keyOfFields (fields : List String) : Outcome WindowsCloudFilesError CloudItemKey := do
  let namespaceText ← Outcome.okOr (invalid "identity namespace is missing") fields[0]?
  let root ← Outcome.okOr (invalid "identity root is missing") fields[1]?
  let item ← Outcome.okOr (invalid "identity item is missing") fields[2]?
  let namespaceId ← fromCore (StringIdentity.new namespaceText)
  let rootId ← fromCore (StringIdentity.new root)
  let itemId ← fromCore (StringIdentity.new item)
  return ⟨⟨namespaceId, rootId⟩, itemId⟩

def decodeBytes (bytes : List UInt8) : Outcome WindowsCloudFilesError CloudItemKey := do
  if bytes.length < headerLen then
    .error (invalid "identity envelope is truncated")
  else if bytes.take magic.length ≠ magic then
    .error (invalid "identity envelope magic does not match")
  else
    let version ← element bytes magic.length
    if version ≠ formatVersion then
      .error (invalid "identity envelope version is unsupported")
    else
      let lengths ← [0, 1, 2].mapM (decodeLength bytes)
      let expectedLen ← Outcome.okOr (invalid "identity field lengths overflow")
        (lengths.foldlM (checkedAdd usizeMax) headerLen)
      if expectedLen ≠ bytes.length then
        .error (invalid "identity field lengths do not match the envelope")
      else
        let fields ← decodeFields bytes headerLen lengths
        keyOfFields fields

/-! ## What the encoder writes -/

def envelope (fields : List (List UInt8)) : List UInt8 :=
  magic ++ formatVersion :: ((fields.map fun field => leBytes 4 field.length).flatten ++ fields.flatten)

variable {fl : List (List UInt8)} {key : CloudItemKey} {bytes : List UInt8}

lemma length_envelope (ht : fl.length = 3) : (envelope fl).length = headerLen + (fl.map length).sum := by
  have htable : ∀ fl : List (List UInt8),
      (fl.map fun f => leBytes 4 f.length).flatten.length = 4 * fl.length := by
    intro fl
    induction fl with
    | nil => rfl
    | cons f fl ih =>
      simp only [map_cons, flatten_cons, length_append, length_leBytes, ih, length_cons]
      omega
  rw [envelope, length_append, length_cons, length_append, htable, length_flatten, headerLen]
  omega

def encodedLength (key : CloudItemKey) : ℕ := (envelope (identityFields key)).length

lemma encodedLength_eq (key : CloudItemKey) :
    encodedLength key = headerLen + ((identityFields key).map length).sum :=
  length_envelope rfl

lemma length_le_encodedLength {fl : List UInt8} (h : fl ∈ identityFields key) : fl.length ≤ encodedLength key := by
  have hle := single_le_sum (by simp) _ (mem_map_of_mem (f := length) h)
  rw [encodedLength_eq]
  omega

lemma mapM_lengthBytes (h : ∀ f ∈ fl, f.length ≤ u32Max) :
    fl.mapM lengthBytes = .ok (fl.map fun f => leBytes 4 f.length) := by
  induction fl with
  | nil => rfl
  | cons f fl ih =>
    rw [forall_mem_cons] at h
    rw [mapM_cons, lengthBytes, if_pos h.1, ih h.2]
    rfl

/-- **The encoder writes the envelope**, unless the platform's limit is exceeded. -/
theorem encodeBytes_eq_ok : encodeBytes key = .ok bytes ↔
    encodedLength key ≤ cfapiFileIdentityMaxBytes ∧ envelope (identityFields key) = bytes := by
  have hlen := encodedLength_eq key
  have hmax : cfapiFileIdentityMaxBytes ≤ u32Max := by decide
  have hmax' : u32Max ≤ usizeMax := by decide
  rw [encodeBytes, foldlM_checkedAdd (Nat.zero_le _), Nat.zero_add]
  by_cases hfits : encodedLength key ≤ cfapiFileIdentityMaxBytes
  · have hpay : ((identityFields key).map length).sum ≤ usizeMax := by omega
    have htotal : encodedLength key ≤ usizeMax := by omega
    have hshort : ∀ f ∈ identityFields key, f.length ≤ u32Max := fun f hf =>
      (length_le_encodedLength hf).trans (hfits.trans hmax)
    rw [if_pos hpay, mapM_lengthBytes hshort]
    simp [checkedAdd, ← hlen, htotal, validateSize, hfits.not_gt, hfits, envelope]
  · -- whichever check notices, the result is an error
    simp only [hfits, false_and, iff_false]
    by_cases hpay : ((identityFields key).map length).sum ≤ usizeMax
    · rw [if_pos hpay]
      by_cases htotal : encodedLength key ≤ usizeMax
      · simp [checkedAdd, ← hlen, htotal, validateSize, not_le.mp hfits]
      · simp [checkedAdd, ← hlen, htotal]
    · rw [if_neg hpay]
      simp

/-! ## What the decoder accepts -/

lemma decodeLength_eq (b a : List UInt8) (i : ℕ) {raw : List UInt8}
    (hb : b.length = magic.length + 1 + i * 4) (hr : raw.length = 4) :
    decodeLength (b ++ (raw ++ a)) i = .ok (leValue raw) := by
  simp [decodeLength, sliceBetween_middle hb (congrArg _ hr), hr]

lemma decodeFields_eq {offset : ℕ} {lengths : List ℕ} (hft : offset + lengths.sum ≤ usizeMax)
    (hc : cutAt (ε := WindowsCloudFilesError) bytes offset lengths = .ok fl) : decodeFields bytes offset lengths =
      .okOr (invalid "identity field is not UTF-8") (fl.mapM fromUtf8) := by
  induction lengths generalizing offset fl with
  | nil =>
    cases hc
    rfl
  | cons length lengths ih =>
    rw [sum_cons] at hft
    simp only [cutAt, Outcome.bind_eq_ok] at hc
    obtain ⟨field, hs, rest, hr, hf⟩ := hc
    cases hf
    have hadd : offset + length ≤ usizeMax := by omega
    have htail := ih (by omega) hr
    simp only [decodeFields, addWithin, if_pos hadd, Outcome.monad_bind, Outcome.ok_bind, hs,
      htail, mapM_cons, Outcome.monad_pure]
    cases fromUtf8 field with
    | none => rfl
    | some value => cases rest.mapM fromUtf8 <;> rfl

lemma keyOfFields_ne_panicked (fields : List String) : keyOfFields fields ≠ .panicked := by
  have hcore : ∀ {α : Type} (x : Except CloudFilesCoreError α), fromCore x ≠ .panicked := by
    intro α x
    cases x <;> simp [fromCore]
  refine Outcome.bind_ne_panicked Outcome.okOr_ne_panicked fun _ _ => ?_
  refine Outcome.bind_ne_panicked Outcome.okOr_ne_panicked fun _ _ => ?_
  refine Outcome.bind_ne_panicked Outcome.okOr_ne_panicked fun _ _ => ?_
  refine Outcome.bind_ne_panicked (hcore _) fun _ _ => ?_
  refine Outcome.bind_ne_panicked (hcore _) fun _ _ => ?_
  exact Outcome.bind_ne_panicked (hcore _) fun _ _ => nofun

lemma fromCore_new_eq_ok {f v : String} {identity : StringIdentity f} :
    fromCore (StringIdentity.new v) = .ok identity ↔ identity.value = v := by
  obtain ⟨own, ho⟩ := identity
  by_cases hvalue : v ≠ ""
  · simp [StringIdentity.new, hvalue, fromCore, eq_comm]
  · simp only [StringIdentity.new, dif_neg hvalue, fromCore, reduceCtorEq, false_iff]
    rintro rfl
    exact hvalue ho

lemma keyOfFields_eq_ok {nt r i : String} : keyOfFields [nt, r, i] = .ok key ↔
    key.scope.namespaceId.value = nt ∧ key.scope.rootId.value = r ∧ key.itemId.value = i := by
  simp only [keyOfFields, Outcome.monad_bind, Outcome.monad_pure, Outcome.bind_eq_ok,
    Outcome.okOr_eq_ok, fromCore_new_eq_ok]
  constructor
  · rintro ⟨_, hns, _, hrt, _, hit, _, hn, _, hr, _, hi, hk⟩
    cases hns
    cases hrt
    cases hit
    cases hk
    exact ⟨hn, hr, hi⟩
  · rintro ⟨hn, hr, hi⟩
    exact ⟨_, rfl, _, rfl, _, rfl, _, hn, _, hr, _, hi, rfl⟩

variable {fr sc th : List UInt8}

/-- Bytes with the right header are decoded from their table: the lengths have to add up to what
is there, and then the fields are cut out and read. -/
lemma decodeBytes_table (p : List UInt8) (hf : fr.length = 4) (hs : sc.length = 4) (ht : th.length = 4) :
    decodeBytes (magic ++ formatVersion :: (fr ++ (sc ++ (th ++ p)))) =
      if headerLen + [leValue fr, leValue sc, leValue th].sum ≤ usizeMax then
        if [leValue fr, leValue sc, leValue th].sum = p.length then
          (decodeFields (magic ++ formatVersion :: (fr ++ (sc ++ (th ++ p))))
            headerLen [leValue fr, leValue sc, leValue th]).bind keyOfFields
        else .error (invalid "identity field lengths do not match the envelope")
      else .error (invalid "identity field lengths overflow") := by
  set bytes := magic ++ formatVersion :: (fr ++ (sc ++ (th ++ p))) with hbytes
  have hlen : bytes.length = headerLen + p.length := by
    simp only [hbytes, length_append, length_cons, hf, hs, ht, headerLen]
    omega
  have hlong : ¬ bytes.length < headerLen := by omega
  have hmagic : bytes.take magic.length = magic := take_left
  have hversion : element (ε := WindowsCloudFilesError) bytes magic.length = .ok formatVersion :=
    element_middle rfl
  have hzero : decodeLength bytes 0 = .ok (leValue fr) := by
    have h := decodeLength_eq (magic ++ [formatVersion]) (sc ++ (th ++ p)) 0 rfl hf
    simpa [hbytes] using h
  have hone : decodeLength bytes 1 = .ok (leValue sc) := by
    have h := decodeLength_eq (magic ++ formatVersion :: fr) (th ++ p) 1 (by simp [hf]) hs
    simpa [hbytes] using h
  have htwo : decodeLength bytes 2 = .ok (leValue th) := by
    have h := decodeLength_eq (magic ++ formatVersion :: (fr ++ sc)) p 2 (by simp [hf, hs]) ht
    simpa [hbytes] using h
  have hheader : headerLen ≤ usizeMax := by decide
  have htable : [0, 1, 2].mapM (decodeLength bytes) = .ok [leValue fr, leValue sc, leValue th] := by
    simp [mapM_cons, hzero, hone, htwo]
  simp only [decodeBytes, if_neg hlong, hmagic, ne_eq, not_true_eq_false, if_false, hversion,
    Outcome.monad_bind, Outcome.ok_bind, htable, foldlM_checkedAdd hheader]
  by_cases hsum : headerLen + [leValue fr, leValue sc, leValue th].sum ≤ usizeMax
  · simp only [if_pos hsum, Outcome.okOr, Outcome.ok_bind, hlen]
    by_cases hpay : [leValue fr, leValue sc, leValue th].sum = p.length <;> simp [hpay]
  · simp only [if_neg hsum, Outcome.okOr, Outcome.error_bind]

variable (b : List UInt8)

lemma decodeBytes_header : (∃ error, decodeBytes b = .error error) ∨
    ∃ fr sc th payload : List UInt8, fr.length = 4 ∧ sc.length = 4 ∧ th.length = 4 ∧
        b = magic ++ formatVersion :: (fr ++ (sc ++ (th ++ payload))) := by
  by_cases hlong : b.length < headerLen
  · exact .inl ⟨_, if_pos hlong⟩
  by_cases hmagic : b.take magic.length ≠ magic
  · exact .inl ⟨_, by rw [decodeBytes, if_neg hlong, if_pos hmagic]⟩
  rw [not_not] at hmagic
  have hlen : headerLen ≤ b.length := not_lt.mp hlong
  obtain ⟨rest, rfl⟩ : ∃ rest, b = magic ++ rest :=
    ⟨b.drop magic.length, by rw [← congrArg (· ++ _) hmagic, take_append_drop]⟩
  rw [length_append, headerLen] at hlen
  cases rest with
  | nil => simp [magic] at hlen
  | cons version rest =>
    rw [length_cons] at hlen
    by_cases hversion : version = formatVersion
    · refine .inr ?_
      obtain ⟨fr, rest, rfl, hf⟩ := exists_split rest 4 (by omega)
      rw [length_append] at hlen
      obtain ⟨sc, rest, rfl, hs⟩ := exists_split rest 4 (by omega)
      rw [length_append] at hlen
      obtain ⟨th, payload, rfl, ht⟩ := exists_split rest 4 (by omega)
      exact ⟨fr, sc, th, payload, hf, hs, ht, by rw [hversion]⟩
    · refine .inl ⟨invalid "identity envelope version is unsupported", ?_⟩
      have helem : element (ε := WindowsCloudFilesError) (magic ++ version :: rest)
          magic.length = .ok version := element_middle rfl
      simp only [decodeBytes, if_neg hlong, hmagic, ne_eq, not_true_eq_false, if_false,
        Outcome.monad_bind, helem, Outcome.ok_bind, hversion, not_false_eq_true, if_true]

/-- Three fields that a length table can describe. -/
structure Framed (fields : List (List UInt8)) : Prop where
  three : fields.length = 3
  short : ∀ field ∈ fields, field.length ≤ u32Max

/-- **An envelope is decoded to the key its fields name**, if they are text. -/
theorem decodeBytes_envelope (h : Framed fl) : decodeBytes (envelope fl) =
    (Outcome.okOr (invalid "identity field is not UTF-8") (fl.mapM fromUtf8)).bind
      keyOfFields := by
  obtain ⟨ht, hs⟩ := h
  obtain ⟨fr, sc, th, rfl⟩ := length_eq_three.mp ht
  have hword : ∀ field ∈ [fr, sc, th], leValue (leBytes 4 field.length) = field.length := by
    intro field hfl
    refine leValue_leBytes ?_
    have hle := hs field hfl
    have hmax : u32Max < 256 ^ 4 := by decide
    omega
  simp only [forall_mem_cons, not_mem_nil, false_imp_iff, implies_true, and_true] at hs hword
  obtain ⟨hf, hsn, hth⟩ := hword
  have henvelope : envelope [fr, sc, th] = magic ++ formatVersion ::
      (leBytes 4 fr.length ++ (leBytes 4 sc.length ++ (leBytes 4 th.length ++ [fr, sc, th].flatten))) := by
    simp [envelope]
  have hsum : headerLen + [fr.length, sc.length, th.length].sum ≤ usizeMax := by
    have hmax : headerLen + 3 * u32Max ≤ usizeMax := by decide
    simp only [sum_cons, sum_nil]
    omega
  have hcut : cutAt (ε := WindowsCloudFilesError) (envelope [fr, sc, th]) headerLen
      [fr.length, sc.length, th.length] = .ok [fr, sc, th] := by
    have h := cutAt_flatten (ε := WindowsCloudFilesError) (magic ++ formatVersion ::
      (leBytes 4 fr.length ++ (leBytes 4 sc.length ++ leBytes 4 th.length)))
      [fr, sc, th] headerLen (by simp [headerLen])
    rw [henvelope]
    simpa using h
  rw [henvelope, decodeBytes_table _ (length_leBytes 4 _) (length_leBytes 4 _) (length_leBytes 4 _),
    ← henvelope, hf, hsn, hth, if_pos hsum, decodeFields_eq hsum hcut]
  simp

/-- **The decoder never leaves its bytes**: whatever they are, it answers with a key or an error. -/
theorem decodeBytes_cases : (∃ error, decodeBytes b = .error error) ∨ ∃ fl, Framed fl ∧ b = envelope fl := by
  rcases decodeBytes_header b with h | ⟨fr, sc, th, payload, hf, hs, ht,
    rfl⟩
  · exact .inl h
  have htable := decodeBytes_table payload hf hs ht
  by_cases hsum : headerLen + [leValue fr, leValue sc, leValue th].sum ≤ usizeMax
  · rw [if_pos hsum] at htable
    by_cases hpay : [leValue fr, leValue sc, leValue th].sum = payload.length
    · refine .inr ?_
      obtain ⟨fl, hfl, hl, -⟩ := cutAt_total (ε := WindowsCloudFilesError) [] payload _ rfl hpay
      have hthree : fl.length = 3 := by simpa using congrArg length hl
      obtain ⟨one, two, three, rfl⟩ := length_eq_three.mp hthree
      simp only [map_cons, map_nil, cons.injEq, and_true] at hl
      obtain ⟨ho, htw, hth'⟩ := hl
      have hw : ∀ {word field : List UInt8}, word.length = 4 → field.length = leValue word →
          field.length ≤ u32Max ∧ leBytes 4 field.length = word := by
        intro word field hw hfd
        have hlt := leValue_lt word
        rw [hw] at hlt
        have hmax : 256 ^ 4 = u32Max + 1 := by decide
        exact ⟨by omega, by rw [hfd, ← hw, leBytes_leValue]⟩
      refine ⟨[one, two, three], ⟨rfl, ?_⟩, ?_⟩
      · simp only [forall_mem_cons, not_mem_nil, false_imp_iff, implies_true, and_true]
        exact ⟨(hw hf ho).1, (hw hs htw).1, (hw ht hth').1⟩
      · simp only [envelope, map_cons, map_nil, (hw hf ho).2, (hw hs htw).2, (hw ht hth').2, ← hfl]
        simp
    · rw [if_neg hpay] at htable
      exact .inl ⟨_, htable⟩
  · rw [if_neg hsum] at htable
    exact .inl ⟨_, htable⟩

theorem decodeBytes_ne_panicked : decodeBytes b ≠ .panicked := by
  rcases decodeBytes_cases b with ⟨e, h⟩ | ⟨fl, hf, rfl⟩
  · simp [h]
  · rw [decodeBytes_envelope hf]
    exact Outcome.bind_ne_panicked Outcome.okOr_ne_panicked fun _ _ => keyOfFields_ne_panicked _

lemma mapM_identityFields {s : List String} : [fr, sc, th].mapM fromUtf8 = some s ↔
    ∃ one two t, s = [one, two, t] ∧ utf8Bytes one = fr ∧ utf8Bytes two = sc ∧ utf8Bytes t = th := by
  simp only [mapM_cons, mapM_nil, Option.pure_def, Option.bind_eq_bind,
    Option.bind_some, Option.bind_eq_some_iff, fromUtf8_eq_some, Option.some.injEq]
  constructor
  · rintro ⟨one, ho, _, ⟨two, htw, _, ⟨t, ht, rfl⟩, rfl⟩, rfl⟩
    exact ⟨one, two, t, rfl, ho, htw, ht⟩
  · rintro ⟨one, two, t, rfl, ho, htw, ht⟩
    exact ⟨one, ho, _, ⟨two, htw, _, ⟨t, ht, rfl⟩, rfl⟩, rfl⟩

/-- **The bytes a key is decoded from are the envelope of that key.** -/
theorem decodeBytes_eq_ok : decodeBytes bytes = .ok key ↔
    (∀ f ∈ identityFields key, f.length ≤ u32Max) ∧ envelope (identityFields key) = bytes := by
  have hdec : ∀ {fl}, Framed fl → (decodeBytes (envelope fl) = .ok key ↔ identityFields key = fl) := by
    intro fl hf
    obtain ⟨fr, sc, th, rfl⟩ := length_eq_three.mp hf.three
    simp only [decodeBytes_envelope hf, Outcome.bind_eq_ok, Outcome.okOr_eq_ok,
      mapM_identityFields, identityFields, cons.injEq, and_true]
    constructor
    · rintro ⟨_, ⟨one, two, t, rfl, ho, htw, ht⟩, hk⟩
      obtain ⟨hn, hr, hi⟩ := keyOfFields_eq_ok.mp hk
      rw [hn, hr, hi]
      exact ⟨ho, htw, ht⟩
    · rintro ⟨ho, htw, ht⟩
      exact ⟨_, ⟨_, _, _, rfl, ho, htw, ht⟩, keyOfFields_eq_ok.mpr ⟨rfl, rfl, rfl⟩⟩
  constructor
  · intro h
    rcases decodeBytes_cases bytes with ⟨e, he⟩ | ⟨fl, hf, rfl⟩
    · rw [he] at h
      cases h
    · rw [hdec hf] at h
      exact ⟨h ▸ hf.short, h ▸ rfl⟩
  · rintro ⟨hs, rfl⟩
    exact (hdec ⟨rfl, hs⟩).mpr rfl

/-! ## Identities -/

structure WindowsFileIdentity where
  bytes : List UInt8
  size : bytes.length ≤ cfapiFileIdentityMaxBytes
  decodes : ∃ key, decodeBytes bytes = .ok key

@[ext] lemma WindowsFileIdentity.ext {x y : WindowsFileIdentity} (h : x.bytes = y.bytes) : x = y := by
  cases y
  cases h
  rfl

lemma decodeBytes_of_encodeBytes (h : encodeBytes key = .ok bytes) : decodeBytes bytes = .ok key := by
  obtain ⟨hs, hb⟩ := encodeBytes_eq_ok.mp h
  refine decodeBytes_eq_ok.mpr ⟨fun f hf => ?_, hb⟩
  have hmax : cfapiFileIdentityMaxBytes ≤ u32Max := by decide
  exact (length_le_encodedLength hf).trans (hs.trans hmax)

lemma encodeBytes_of_decodeBytes
    (hs : bytes.length ≤ cfapiFileIdentityMaxBytes) (h : decodeBytes bytes = .ok key) :
    encodeBytes key = .ok bytes := by
  obtain ⟨-, rfl⟩ := decodeBytes_eq_ok.mp h
  exact encodeBytes_eq_ok.mpr ⟨hs, rfl⟩

lemma length_le_of_encodeBytes (h : encodeBytes key = .ok bytes) : bytes.length ≤ cfapiFileIdentityMaxBytes := by
  obtain ⟨hs, rfl⟩ := encodeBytes_eq_ok.mp h
  exact hs

namespace WindowsFileIdentity

def encode (key : CloudItemKey) : Except WindowsCloudFilesError WindowsFileIdentity :=
  match h : encodeBytes key with
  | .ok bytes => .ok ⟨bytes, length_le_of_encodeBytes h, key, decodeBytes_of_encodeBytes h⟩
  | .error error => .error error

def fromBytes (bytes : List UInt8) : Outcome WindowsCloudFilesError WindowsFileIdentity :=
  if hsize : bytes.length ≤ cfapiFileIdentityMaxBytes then
    match h : decodeBytes bytes with
    | .ok key => .ok ⟨bytes, hsize, key, h⟩
    | .error error => .error error
    | .panicked => .panicked
  else .error (.fileIdentityTooLarge bytes.length cfapiFileIdentityMaxBytes)

def decode (self : WindowsFileIdentity) : Outcome WindowsCloudFilesError CloudItemKey :=
  decodeBytes self.bytes

variable {i : WindowsFileIdentity}

lemma encode_eq_ok {key : CloudItemKey} : encode key = .ok i ↔ encodeBytes key = .ok i.bytes := by
  rw [encode]
  split
  · rename_i bytes h
    rw [Except.ok.injEq, WindowsFileIdentity.ext_iff]
    simp [h]
  · rename_i error h
    simp [h]

lemma fromBytes_eq_ok {b : List UInt8} : fromBytes b = .ok i ↔ i.bytes = b := by
  rw [fromBytes]
  constructor
  · intro h
    split at h
    · split at h <;> cases h
      rfl
    · cases h
  · rintro rfl
    obtain ⟨b, hs, key, hk⟩ := i
    rw [dif_pos hs]
    split <;> simp_all

end WindowsFileIdentity

/-- The envelope of three one-letter strings. -/
example : (WindowsFileIdentity.encode
    ⟨⟨⟨"n", by decide⟩, ⟨"r", by decide⟩⟩, ⟨"i", by decide⟩⟩).toOption.map (·.bytes) =
      some [0x41, 0x46, 0x43, 0x46, 1, 1, 0, 0, 0, 1, 0, 0, 0, 1, 0, 0, 0, 0x6e, 0x72, 0x69] := by
  decide

open WindowsFileIdentity in
/-- **The file identity codec.**  A key is encoded exactly if its envelope fits the platform's
limit; decoding what was encoded gives the key back; encoding what was decoded from accepted bytes
gives the bytes back; different keys have different identities; and no bytes at all make the
decoder leave them. -/
theorem fileIdentity_codec : (∀ key, (∃ identity, encode key = .ok identity) ↔
      headerLen + ((identityFields key).map length).sum ≤ cfapiFileIdentityMaxBytes) ∧
    (∀ key identity, encode key = .ok identity → identity.decode = .ok key ∧
      identity.bytes.length = headerLen + ((identityFields key).map length).sum) ∧
    (∀ bytes identity, fromBytes bytes = .ok identity → identity.bytes = bytes ∧
      ∃ key, identity.decode = .ok key ∧ encode key = .ok identity) ∧
    (∀ key key' identity, encode key = .ok identity → encode key' = .ok identity → key = key') ∧
    ∀ bytes, fromBytes bytes ≠ .panicked ∧ decodeBytes bytes ≠ .panicked := by
  have hdec : ∀ key identity, encode key = .ok identity → identity.decode = .ok key :=
    fun key identity h => decodeBytes_of_encodeBytes (encode_eq_ok.mp h)
  refine ⟨fun key => ?_, fun key identity h => ⟨hdec key identity h, ?_⟩,
    fun bytes identity h => ?_, fun key key' identity h h' => ?_, fun bytes => ?_⟩
  · rw [← encodedLength_eq]
    constructor
    · rintro ⟨identity, h⟩
      exact (encodeBytes_eq_ok.mp (encode_eq_ok.mp h)).1
    · intro hs
      have h := encodeBytes_eq_ok.mpr ⟨hs, rfl⟩
      exact ⟨⟨_, length_le_of_encodeBytes h, key, decodeBytes_of_encodeBytes h⟩, encode_eq_ok.mpr h⟩
  · rw [← encodedLength_eq, ← (encodeBytes_eq_ok.mp (encode_eq_ok.mp h)).2, encodedLength]
  · obtain ⟨key, hk⟩ := identity.decodes
    refine ⟨fromBytes_eq_ok.mp h, key, hk, ?_⟩
    exact encode_eq_ok.mpr (encodeBytes_of_decodeBytes identity.size hk)
  · have hkeys := (hdec key identity h).symm.trans (hdec key' identity h')
    exact Outcome.ok.inj hkeys
  · refine ⟨fun h => ?_, decodeBytes_ne_panicked bytes⟩
    rw [fromBytes] at h
    split at h
    · split at h <;> cases h
      exact decodeBytes_ne_panicked bytes ‹_›
    · cases h

end AsterForge.Windows
