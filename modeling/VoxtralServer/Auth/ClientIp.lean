import Mathlib.Data.List.Forall2
import VoxtralServer.Lib.Fields
import VoxtralServer.Base

/-!
# Client address extraction

`extract_client_ip` takes the client address from `X-Forwarded-For` when the
proxy is trusted. It cuts the header at its last comma `trusted_hops - 1`
times and reads the last field of the rest.

* `extractClientIp_field`: the result is the `trusted_hops`-th field from the
  right, trimmed, or the socket address.
* `forwarded_field`: behind a chain of trusted proxies that field is the peer of
  the outermost one, whatever header the client sent.
-/

namespace VoxtralServer

open Fields

def comma : UInt8 := (',').toUInt8

/-- `is_ows`: a space or a tab. -/
def isOws (c : UInt8) : Bool := c == (' ').toUInt8 || c == ('\t').toUInt8

/-- `extract_client_ip`. The loop of `trusted_hops - 1` rounds is `cutFields`;
a header with too few commas falls back to the socket address. -/
def extractClientIp (forwardedFor remoteAddr : Str) (trustProxy : Bool) (trustedHops : Int) :
    Str :=
  if !trustProxy || forwardedFor.isEmpty then remoteAddr
  else
    match cutFields comma (trustedHops - 1).toNat forwardedFor with
    | none => remoteAddr
    | some remaining =>
      let ip := trim isOws (lastField comma remaining)
      if ip.isEmpty then remoteAddr else ip

/-- The `h`-th comma-separated field from the right, when there is one. -/
def fieldFromRight (forwardedFor : Str) (h : Nat) : Option Str :=
  (forwardedFor.splitOn comma).reverse[h - 1]?

/-- What the field found in the header says about the client: its text without
the blanks around it, or the socket address when nothing is left. -/
def clientOfField (remoteAddr : Str) : Option Str → Str
  | none => remoteAddr
  | some field => if trim isOws field = [] then remoteAddr else trim isOws field

/-- A blank field gives the socket address. Any other field gives the text
between its outer blanks, which neither starts nor ends with one. -/
theorem clientOfField_some (remoteAddr field : Str) :
    ((∀ c ∈ field, isOws c = true) ∧ clientOfField remoteAddr (some field) = remoteAddr) ∨
    ∃ l r ip, field = l ++ ip ++ r ∧ clientOfField remoteAddr (some field) = ip ∧ ip ≠ [] ∧
      (∀ c ∈ l, isOws c = true) ∧ (∀ c ∈ r, isOws c = true) ∧
      (∀ c, ip.head? = some c → isOws c = false) ∧
      ∀ c, ip.getLast? = some c → isOws c = false := by
  obtain ⟨⟨l, r, hfield, hl, hr⟩, hhead, hlast⟩ := trim_spec isOws field
  by_cases hblank : trim isOws field = []
  · refine .inl ⟨?_, if_pos hblank⟩
    intro c hc
    rw [hfield, hblank, List.append_nil, List.mem_append] at hc
    exact hc.elim (hl c) (hr c)
  · exact .inr ⟨l, r, trim isOws field, hfield, if_neg hblank, hblank, hl, hr, hhead, hlast⟩

/-- The header is read by fields from the right. An empty header has one blank
field, so it needs no case of its own. -/
theorem extractClientIp_field (forwardedFor remoteAddr : Str) {trustedHops : Int}
    (h : 1 ≤ trustedHops) :
    extractClientIp forwardedFor remoteAddr true trustedHops =
      clientOfField remoteAddr (fieldFromRight forwardedFor trustedHops.toNat) := by
  have hn : (trustedHops - 1).toNat = trustedHops.toNat - 1 := by omega
  have hspec := cutFields_spec comma (trustedHops.toNat - 1) forwardedFor
  unfold fieldFromRight extractClientIp
  rw [← hspec, hn]
  cases forwardedFor with
  | nil =>
    cases trustedHops.toNat - 1 with
    | zero => rfl
    | succ n => rfl
  | cons x xs =>
    simp only [Bool.not_true, List.isEmpty_cons, Bool.or_false, Bool.false_eq_true, if_false]
    cases cutFields comma (trustedHops.toNat - 1) (x :: xs) with
    | none => rfl
    | some remaining => simp only [Option.map_some, clientOfField, List.isEmpty_iff]

/-! ## A chain of trusted proxies -/

/-- What a proxy sends on: it appends the address of its peer to the header it
received, or starts the header. -/
def appendPeer (received : Option Str) (peer : Str) : Option Str :=
  match received with
  | none => some peer
  | some header => some (header ++ utf8 ", " ++ peer)

/-- The header after the proxies whose peers are `peers`, the outermost proxy
first. -/
def forwarded (sent : Option Str) (peers : List Str) : Option Str :=
  peers.foldl appendPeer sent

/-- An address a proxy appends: not empty, no comma, no blanks around it. -/
structure PeerAddr (a : Str) : Prop where
  nonempty : a ≠ []
  noComma : comma ∉ a
  headNotBlank : ∀ c, a.head? = some c → isOws c = false
  lastNotBlank : ∀ c, a.getLast? = some c → isOws c = false

/-- Any address without commas and blanks can be appended. -/
theorem PeerAddr.of_no_blank {a : Str} (hne : a ≠ []) (hcomma : comma ∉ a)
    (h : a.any isOws = false) : PeerAddr a := by
  have hblank (c : UInt8) (hc : c ∈ a) : isOws c = false := by
    simpa using List.any_eq_false.mp h c hc
  exact ⟨hne, hcomma, fun c hc => hblank c (List.mem_of_mem_head? hc),
    fun c hc => hblank c (List.mem_of_mem_getLast? hc)⟩

namespace ClientIpLemmas

/-- A field as a proxy writes it: the peer, maybe after one blank. -/
def Written (field peer : Str) : Prop := field = peer ∨ field = (' ').toUInt8 :: peer

theorem trim_written {field peer : Str} (hp : PeerAddr peer) (hw : Written field peer) :
    trim isOws field = peer := by
  have hself : trim isOws peer = peer := trim_eq_self hp.headNotBlank hp.lastNotBlank
  rcases hw with rfl | rfl
  · exact hself
  · have hblank : trim isOws ((' ').toUInt8 :: peer) = trim isOws peer := rfl
    rw [hblank, hself]

/-- The fields of a header, none when the header is absent. -/
def fieldsOf : Option Str → List Str
  | none => []
  | some header => header.splitOn comma

/-- One proxy appends one field, which its peer can be read from. -/
theorem appendPeer_fields (received : Option Str) {peer : Str} (hp : PeerAddr peer) :
    ∃ field, Written field peer ∧
      fieldsOf (appendPeer received peer) = fieldsOf received ++ [field] := by
  cases received with
  | none => exact ⟨peer, .inl rfl, List.splitOn_eq_singleton hp.noComma⟩
  | some old =>
    have hsep : old ++ utf8 ", " ++ peer = old ++ comma :: ((' ').toUInt8 :: peer) := by
      rw [List.append_assoc]
      rfl
    refine ⟨(' ').toUInt8 :: peer, .inr rfl, ?_⟩
    simp only [appendPeer, fieldsOf]
    rw [hsep]
    refine splitOn_append_field old ?_
    rw [List.mem_cons, not_or]
    exact ⟨by decide, hp.noComma⟩

/-- The last fields of the header are those the proxies wrote, in order. -/
theorem forwarded_fields : ∀ (sent : Option Str) {peers : List Str},
    (∀ a ∈ peers, PeerAddr a) → ∃ fields, List.Forall₂ Written fields peers ∧
      fieldsOf (forwarded sent peers) = fieldsOf sent ++ fields
  | sent, [], _ => ⟨[], .nil, (List.append_nil _).symm⟩
  | sent, peer :: peers, hall => by
    obtain ⟨hpeer, hpeers⟩ := List.forall_mem_cons.mp hall
    obtain ⟨field, hw, hfield⟩ := appendPeer_fields sent hpeer
    obtain ⟨fields, hws, hfields⟩ := forwarded_fields (appendPeer sent peer) hpeers
    refine ⟨field :: fields, .cons hw hws, ?_⟩
    simp only [forwarded, List.foldl_cons] at hfields ⊢
    rw [hfields, hfield, List.append_assoc]
    rfl

end ClientIpLemmas

open ClientIpLemmas

/-- Counted from the right, the field that the outermost of the trusted proxies
wrote is as far as there are proxies, whatever header the client sent. -/
theorem forwarded_field (sent : Option Str) {peer : Str} {peers : List Str}
    (hall : ∀ a ∈ peer :: peers, PeerAddr a) :
    ∃ header field, forwarded sent (peer :: peers) = some header ∧
      fieldFromRight header (peers.length + 1) = some field ∧ trim isOws field = peer := by
  obtain ⟨fields, hws, hfields⟩ := forwarded_fields sent hall
  cases hws with
  | @cons field _ fields _ hw hws =>
    cases hh : forwarded sent (peer :: peers) with
    | none =>
      rw [hh] at hfields
      simp [fieldsOf] at hfields
    | some header =>
      refine ⟨header, field, rfl, ?_, trim_written (hall peer List.mem_cons_self) hw⟩
      rw [hh] at hfields
      simp only [fieldsOf] at hfields
      rw [fieldFromRight, hfields, List.reverse_append, List.reverse_cons, ← hws.length_eq]
      simp

/-- **Client IP extraction.** With the proxy trusted, the result is the
`trusted_hops`-th field from the right without its blanks, or the socket
address. Behind as many trusted proxies as hops, it is the peer of the
outermost one, whatever the client sent. With the proxy not trusted, it is the
socket address. -/
theorem extractClientIp_spec (remoteAddr : Str) (trustedHops : Int) (h : 1 ≤ trustedHops) :
    (∀ forwardedFor, extractClientIp forwardedFor remoteAddr true trustedHops =
      clientOfField remoteAddr (fieldFromRight forwardedFor trustedHops.toNat)) ∧
    (∀ (sent : Option Str) (peer : Str) (peers : List Str), (∀ a ∈ peer :: peers, PeerAddr a) →
      ((peer :: peers).length : Int) = trustedHops →
      ∃ header, forwarded sent (peer :: peers) = some header ∧
        extractClientIp header remoteAddr true trustedHops = peer) ∧
    ∀ forwardedFor, extractClientIp forwardedFor remoteAddr false trustedHops = remoteAddr := by
  refine ⟨fun ff => extractClientIp_field ff remoteAddr h, ?_, fun _ => rfl⟩
  intro sent peer peers hall hlen
  obtain ⟨header, field, hheader, hfield, htrim⟩ := forwarded_field sent hall
  have hn : trustedHops.toNat = peers.length + 1 := by
    rw [← hlen, Int.toNat_natCast, List.length_cons]
  refine ⟨header, hheader, ?_⟩
  rw [extractClientIp_field header remoteAddr h, hn, hfield]
  simp only [clientOfField, htrim]
  exact if_neg (hall peer List.mem_cons_self).nonempty

/-- Behind two trusted proxies a forged entry does not count, and a header with
one entry is not enough. -/
theorem extractClientIp_two_hops :
    (∃ header, forwarded (some (utf8 "6.6.6.6")) [utf8 "1.2.3.4", utf8 "10.0.0.2"] = some header ∧
      extractClientIp header (utf8 "10.0.0.3") true 2 = utf8 "1.2.3.4") ∧
    extractClientIp (utf8 "6.6.6.6") (utf8 "10.0.0.3") true 2 = utf8 "10.0.0.3" ∧
    extractClientIp (utf8 "6.6.6.6, 7.7.7.7") (utf8 "10.0.0.3") false 2 = utf8 "10.0.0.3" := by
  obtain ⟨hfield, hchain, hoff⟩ := extractClientIp_spec (utf8 "10.0.0.3") 2 (by decide)
  refine ⟨hchain _ _ _ ?_ (by decide), ?_, hoff _⟩
  · have hpeer := PeerAddr.of_no_blank (a := utf8 "1.2.3.4") (by decide) (by decide) (by decide)
    have hproxy := PeerAddr.of_no_blank (a := utf8 "10.0.0.2") (by decide) (by decide) (by decide)
    exact List.forall_mem_cons.mpr ⟨hpeer, List.forall_mem_cons.mpr ⟨hproxy, by simp⟩⟩
  · rw [hfield]
    decide

end VoxtralServer
