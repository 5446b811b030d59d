import Mathlib.Data.List.Infix
import Mathlib.Data.Nat.Bitwise
import VoxtralServer.Base

/-!
# Bearer tokens

`constant_time_equals` folds the exclusive or of the lengths, cut to eight
bits, and of the bytes at each common position into one accumulator. It answers
true when the accumulator ends at zero.

* `constantTimeEquals_iff`: it also accepts two strings of which one is a
  proper prefix of the other and whose lengths agree modulo 256.
* `authenticated_iff`: what `check_bearer_auth` accepts.
-/

namespace VoxtralServer

/-! ## Constant-time comparison -/

/-- `constant_time_equals`: the accumulator starts as the low byte of
`a.size() ^ b.size()`. `zip` pairs the bytes below `min(a.size(), b.size())`. -/
def constantTimeEquals (a b : Str) : Bool :=
  let result := UInt8.ofNat (a.length ^^^ b.length)
  ((a.zip b).foldl (fun result p => result ||| (p.1 ^^^ p.2)) result) == 0

/-- Two different strings that the comparison cannot tell apart: one is a
prefix of the other, and the lengths agree modulo 256. -/
def Confusable (a b : Str) : Prop :=
  a.length ≠ b.length ∧ a.length % 256 = b.length % 256 ∧ (a <+: b ∨ b <+: a)

instance (a b : Str) : Decidable (Confusable a b) := by
  unfold Confusable
  infer_instance

namespace TokenLemmas

theorem lengthByte_eq_zero (m n : Nat) :
    UInt8.ofNat (m ^^^ n) = 0 ↔ m % 256 = n % 256 := by
  have hx : (m ^^^ n) % 256 = m % 256 ^^^ n % 256 := Nat.xor_mod_two_pow (n := 8)
  have h0 : UInt8.ofNat (m ^^^ n) = 0 ↔ (m ^^^ n) % 256 = 0 := by
    rw [← UInt8.toNat_inj, UInt8.toNat_ofNat']
    rfl
  rw [h0, hx, Nat.xor_eq_zero_iff]

/-- The accumulator ends at zero when it starts at zero and every pair of bytes
agrees. -/
theorem fold_eq_zero (l : List (UInt8 × UInt8)) : ∀ r : UInt8,
    l.foldl (fun r p => r ||| (p.1 ^^^ p.2)) r = 0 ↔ r = 0 ∧ ∀ p ∈ l, p.1 = p.2 := by
  induction l with
  | nil => simp
  | cons p l ih =>
    intro r
    rw [List.foldl_cons, ih, UInt8.or_eq_zero_iff, UInt8.xor_eq_zero_iff, List.forall_mem_cons,
      and_assoc]

/-- The bytes agree at every common position when one string is a prefix of
the other. -/
theorem zip_agrees : ∀ a b : Str, (∀ p ∈ a.zip b, p.1 = p.2) ↔ a <+: b ∨ b <+: a
  | [], b => by simp
  | _ :: _, [] => by simp
  | x :: a, y :: b => by
    rw [List.zip_cons_cons, List.forall_mem_cons, zip_agrees a b, List.cons_prefix_cons,
      List.cons_prefix_cons]
    constructor
    · rintro ⟨hxy, h | h⟩
      · exact .inl ⟨hxy, h⟩
      · exact .inr ⟨hxy.symm, h⟩
    · rintro (⟨hxy, h⟩ | ⟨hxy, h⟩)
      · exact ⟨hxy, .inl h⟩
      · exact ⟨hxy.symm, .inr h⟩

end TokenLemmas

open TokenLemmas

/-- Equal strings compare equal, and so do the confusable ones. -/
theorem constantTimeEquals_iff (a b : Str) :
    constantTimeEquals a b = true ↔ a = b ∨ Confusable a b := by
  simp only [constantTimeEquals, beq_iff_eq]
  rw [fold_eq_zero, lengthByte_eq_zero, zip_agrees]
  constructor
  · rintro ⟨hlen, hp⟩
    by_cases h : a.length = b.length
    · rcases hp with hp | hp
      · exact .inl (hp.eq_of_length h)
      · exact .inl (hp.eq_of_length h.symm).symm
    · exact .inr ⟨h, hlen, hp⟩
  · rintro (rfl | ⟨_, hlen, hp⟩)
    · exact ⟨rfl, .inl (List.prefix_refl _)⟩
    · exact ⟨hlen, hp⟩

/-- Every key has a wrong token that the comparison takes for it: the key
followed by 256 bytes. -/
theorem confusable_extension (key pad : Str) (hpad : pad.length = 256) :
    Confusable (key ++ pad) key := by
  refine ⟨?_, ?_, .inr (List.prefix_append _ _)⟩
  · simp [hpad]
  · simp [hpad]

/-! ## Bearer authentication -/

/-- `AuthResult`. -/
structure AuthResult where
  authenticated : Bool := false
  errorCode : Str := []
  errorMessage : Str := []
deriving DecidableEq, Repr

/-- `prefix` in `check_bearer_auth`. -/
def bearerPrefix : Str := utf8 "Bearer "

/-- `check_bearer_auth`. -/
def checkBearerAuth (authHeader apiKey : Str) : AuthResult :=
  if authHeader.isEmpty then
    { errorCode := utf8 "invalid_api_key"
      errorMessage := utf8 "Missing Authorization header. Use: Authorization: Bearer <api_key>" }
  else if authHeader.length ≤ bearerPrefix.length ∨
      authHeader.take bearerPrefix.length ≠ bearerPrefix then
    { errorCode := utf8 "invalid_api_key"
      errorMessage :=
        utf8 "Invalid Authorization header format. Use: Authorization: Bearer <api_key>" }
  else if constantTimeEquals (authHeader.drop bearerPrefix.length) apiKey then
    { authenticated := true }
  else
    { errorCode := utf8 "invalid_api_key"
      errorMessage := utf8 "Invalid API key provided." }

/-- The header is accepted when it is `Bearer ` and a non-empty token that
compares equal to the key. -/
theorem authenticated_iff (authHeader apiKey : Str) :
    (checkBearerAuth authHeader apiKey).authenticated = true ↔
      ∃ token, token ≠ [] ∧ authHeader = bearerPrefix ++ token ∧
        constantTimeEquals token apiKey = true := by
  constructor
  · intro h
    unfold checkBearerAuth at h
    split at h
    · cases h
    split at h
    · cases h
    next hfmt =>
    rw [not_or, not_le, not_not] at hfmt
    split at h
    · next heq =>
      refine ⟨authHeader.drop bearerPrefix.length, ?_, ?_, heq⟩
      · rw [ne_eq, List.drop_eq_nil_iff]
        omega
      · conv_lhs => rw [← List.take_append_drop bearerPrefix.length authHeader]
        rw [hfmt.2]
    · cases h
  · rintro ⟨token, hne, rfl, heq⟩
    have hpos : 0 < token.length := List.length_pos_iff.mpr hne
    unfold checkBearerAuth
    rw [if_neg (by simp [hne]), if_neg (by simp; omega), List.drop_left, if_pos heq]

/-- The exact header is accepted for every key that is not empty. -/
theorem authenticated_exact {apiKey : Str} (h : apiKey ≠ []) :
    (checkBearerAuth (bearerPrefix ++ apiKey) apiKey).authenticated = true :=
  (authenticated_iff _ _).mpr
    ⟨apiKey, h, rfl, (constantTimeEquals_iff _ _).mpr (.inl rfl)⟩

/-- A header that is accepted is the exact one or carries a token confusable
with the key. -/
theorem authenticated_only {authHeader apiKey : Str}
    (h : (checkBearerAuth authHeader apiKey).authenticated = true) :
    authHeader = bearerPrefix ++ apiKey ∨
      ∃ token, token ≠ [] ∧ authHeader = bearerPrefix ++ token ∧ Confusable token apiKey := by
  obtain ⟨token, hne, rfl, heq⟩ := (authenticated_iff _ _).mp h
  rcases (constantTimeEquals_iff _ _).mp heq with rfl | hc
  · exact .inl rfl
  · exact .inr ⟨token, hne, rfl, hc⟩

/-- For a key that is not empty, these headers are all accepted. -/
theorem authenticated_cases {authHeader apiKey : Str} (hkey : apiKey ≠ []) :
    (checkBearerAuth authHeader apiKey).authenticated = true ↔
      authHeader = bearerPrefix ++ apiKey ∨
      ∃ token, token ≠ [] ∧ authHeader = bearerPrefix ++ token ∧ Confusable token apiKey := by
  refine ⟨authenticated_only, ?_⟩
  rintro (rfl | ⟨token, hne, rfl, hc⟩)
  · exact authenticated_exact hkey
  · rw [authenticated_iff]
    exact ⟨token, hne, rfl, (constantTimeEquals_iff _ _).mpr (.inr hc)⟩

end VoxtralServer
