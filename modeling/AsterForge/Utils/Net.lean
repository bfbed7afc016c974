import AsterForge.Library.AddressText

/-!
# The client behind trusted proxies

`real_ip_from_forwarded_for` walks `X-Forwarded-For` from the right and takes the first address outside
the trusted networks.  Each proxy of a chain appends who it had the request from.

* **`realIp_forwarded`** — behind trusted proxies the address found is that of the client, whatever
  header the client sent.
-/

namespace AsterForge.Utils

open Library List

section

-- `contains` is the network library's test whether an address lies in a network
variable {Net : Type} (contains : Net → IpAddr → Bool)

def isTrustedProxy (ip : IpAddr) (trusted : List Net) : Bool := trusted.any fun net => contains net ip

def parseForwardedIp (value : Text) : Option IpAddr :=
  let value := trim value
  parseIpAddr value <|> (parseSocketAddr value).map Prod.fst

/-- The loop of `real_ip_from_forwarded_for`, the entries from the right. -/
def firstUntrusted (peer : IpAddr) (trusted : List Net) : List Text → IpAddr
  | [] => peer
  | entry :: entries =>
    match parseForwardedIp entry with
    | none => peer
    | some ip =>
      if isTrustedProxy contains ip trusted = false then ip else firstUntrusted peer trusted entries

def realIpFromForwardedFor (xForwardedFor : Option Text) (peer : IpAddr) (trusted : List Net) : IpAddr :=
  if trusted.isEmpty ∨ isTrustedProxy contains peer trusted = false then peer
  else
    match xForwardedFor with
    | none => peer
    | some forwarded => firstUntrusted contains peer trusted (forwarded.splitOn ',').reverse

end

/-! ## Chains of proxies -/

/-- A text of an address, plain or with a port. -/
def Spells (entry : Text) (ip : IpAddr) : Prop :=
  parseIpAddr entry = some ip ∨ ∃ port, parseSocketAddr entry = some (ip, port)

/-- A proxy of the chain: what it appends for the party it had the request from, and whether after a
space. -/
structure Hop where
  proxy : IpAddr
  entry : Text
  spaced : Bool

def Hop.forward (hop : Hop) : Option Text → Text
  | none => hop.entry
  | some header => header ++ ',' :: (if hop.spaced then ' ' :: hop.entry else hop.entry)

/-- The header behind a chain of proxies, in the order in which they pass the request on. -/
def forwarded (header : Option Text) (hops : List Hop) : Option Text :=
  hops.foldl (fun header hop => some (hop.forward header)) header

/-- Who sends the request on at the end of a chain. -/
def lastParty (client : IpAddr) (hops : List Hop) : IpAddr :=
  hops.foldl (fun _ hop => hop.proxy) client

/-- Every proxy is trusted and names the party before it. -/
def Chained (Trusted : IpAddr → Prop) : IpAddr → List Hop → Prop
  | _, [] => True
  | party, hop :: hops =>
    Spells hop.entry party ∧ Trusted hop.proxy ∧ Chained Trusted hop.proxy hops

variable {e : Text} {ip client pr : IpAddr} {hop : Hop} {hops : List Hop}

lemma Spells.plain (h : Spells e ip) : ∀ c ∈ e, Plain c := by
  rcases h with h | ⟨p, h⟩
  · exact plain_of_parseWith readsPlain_ipAddr h
  · exact plain_of_parseWith readsPlain_socketAddr h

lemma Spells.parseForwardedIp (h : Spells e ip) {b : Text} (hb : isBlank b = true) :
    parseForwardedIp (b ++ e) = some ip := by
  have hends : ∀ c ∈ e, isWhitespace c = false := fun c hc => (h.plain c hc).2
  have htrim : trim (b ++ e) = e := by
    rw [trim_blank_append hb, trim_eq_self, startsBlank, endsBlank]
    constructor
    · exact (Option.any_eq_false ..).mpr fun c hc => hends c (mem_of_head? hc)
    · exact (Option.any_eq_false ..).mpr fun c hc => hends c (mem_of_getLast? hc)
  rw [Utils.parseForwardedIp, htrim]
  rcases h with h | ⟨p, h⟩
  · rw [h]
    rfl
  · rw [parseIpAddr_eq_none h, h]
    rfl

section

variable {Net : Type} {contains : Net → IpAddr → Bool} {trusted : List Net}

/-- What a proxy appends is the first entry of the walk. -/
lemma firstUntrusted_forward (h : Spells hop.entry pr) (p : IpAddr) (hd : Option Text) :
    firstUntrusted contains p trusted ((hop.forward hd).splitOn ',').reverse =
      if isTrustedProxy contains pr trusted = false then pr
      else firstUntrusted contains p trusted (hd.elim [] fun t => (t.splitOn ',').reverse) := by
  have hcomma : ',' ∉ hop.entry := fun hm => (h.plain _ hm).1 rfl
  have hentry : ∀ b, isBlank b = true → ∀ e,
      firstUntrusted contains p trusted ((b ++ hop.entry) :: e) =
        if isTrustedProxy contains pr trusted = false then pr
        else firstUntrusted contains p trusted e := by
    intro b hb e
    rw [firstUntrusted, h.parseForwardedIp hb]
  cases hd with
  | none =>
    rw [Hop.forward, splitOn_eq_singleton hcomma]
    exact hentry [] rfl []
  | some hd =>
    obtain ⟨b, hb, hnone, hforward⟩ : ∃ b, isBlank b = true ∧ ',' ∉ b ∧
        hop.forward (some hd) = hd ++ ',' :: (b ++ hop.entry) := by
      rw [Hop.forward]
      split
      · exact ⟨[' '], rfl, by decide, rfl⟩
      · exact ⟨[], rfl, by decide, rfl⟩
    have hpiece : ',' ∉ b ++ hop.entry := by simp [hnone, hcomma]
    rw [hforward, splitOn_append_cons_self, splitOn_eq_singleton hpiece, reverse_append]
    exact hentry b hb _

/-- Once the client is in the header, the walk ends at the client. -/
lemma firstUntrusted_forwarded (p : IpAddr) {t : Text} (ht : firstUntrusted contains p trusted (t.splitOn ',').reverse = client)
    (hp : isTrustedProxy contains pr trusted = true)
    (h : Chained (isTrustedProxy contains · trusted = true) pr hops) : ∃ s, forwarded (some t) hops = some s ∧
      firstUntrusted contains p trusted (s.splitOn ',').reverse = client ∧
      isTrustedProxy contains (lastParty pr hops) trusted = true := by
  induction hops generalizing pr t with
  | nil => exact ⟨t, rfl, ht, hp⟩
  | cons hop hops ih =>
    obtain ⟨hs, hpr, hr⟩ := h
    refine ih ?_ hpr hr
    rw [firstUntrusted_forward hs, if_neg (by simp [hp])]
    exact ht

/-- **Spoofing is impossible** behind trusted proxies: the address found is that of the client. -/
theorem realIp_forwarded (hclient : isTrustedProxy contains client trusted = false) (hhops : hops ≠ [])
    (h : Chained (isTrustedProxy contains · trusted = true) client hops) (header : Option Text) :
    realIpFromForwardedFor contains (forwarded header hops) (lastParty client hops) trusted = client := by
  cases hops with
  | nil => exact absurd rfl hhops
  | cons hop hops =>
    obtain ⟨hs, hpr, hr⟩ := h
    have hfirst : ∀ p, firstUntrusted contains p trusted
        ((hop.forward header).splitOn ',').reverse = client := by
      intro p
      rw [firstUntrusted_forward hs, if_pos hclient]
    obtain ⟨s, hsn, hfn, hp⟩ :=
      firstUntrusted_forwarded (lastParty hop.proxy hops) (hfirst _) hpr hr
    have hopen : ¬ (trusted.isEmpty ∨
        isTrustedProxy contains (lastParty hop.proxy hops) trusted = false) := by
      rintro (he | hf)
      · rw [isEmpty_iff.mp he] at hp
        cases hp
      · rw [hp] at hf
        cases hf
    change realIpFromForwardedFor contains (forwarded (some (hop.forward header)) hops)
      (lastParty hop.proxy hops) trusted = client
    rw [hsn, realIpFromForwardedFor, if_neg hopen]
    exact hfn

end

/-- The networks are single addresses, and the client sends an address of its own making. -/
theorem realIp_forwarded_spoofed : realIpFromForwardedFor (fun net ip => decide (net = ip))
    (forwarded (some "6.6.6.6".toList) [⟨.v4 0x0A000005, "203.0.113.10:54321".toList, true⟩])
    (.v4 0x0A000005) [.v4 0x0A000005] = .v4 0xCB00710A :=
  @realIp_forwarded (.v4 0xCB00710A) [⟨.v4 0x0A000005, "203.0.113.10:54321".toList, true⟩] IpAddr
    (fun net ip => decide (net = ip)) [.v4 0x0A000005] (by decide +kernel) (cons_ne_nil _ _)
    ⟨.inr ⟨54321, by decide +kernel⟩, by decide +kernel, trivial⟩ _

end AsterForge.Utils
