import WappPlanner.Ingestion.Signature
import WappPlanner.Orchestrator.Links

/-! # Strings from outside

The HTTP layer turns the declared errors of the three checks it makes into 4xx answers: a clicked
token, a webhook's signature header, the handshake of a subscription. All three end in
`hmac.compare_digest`, which raises `TypeError` on text that is not ASCII, so each check keeps to its
declared errors exactly when it compares ASCII text (`declared_iff`). -/

namespace WappPlanner.Api

open WappPlanner.Errors WappPlanner.Hitl.Tokens WappPlanner.Ingestion.Signature
open WappPlanner.Orchestrator WappPlanner.Orchestrator.Links WappPlanner.Py.Text
open WappPlanner.Py.Values

/-- What verifying a token may do: give the token, or raise one of the two token errors. -/
def TokenAnswer : Except Exn ActionToken → Prop
  | .ok _ => True
  | .error (.invalidToken _) => True
  | .error (.expiredToken _) => True
  | .error _ => False

/-- What the signature check may do: say whether the header names the payload's digest. -/
def SignatureAnswer (payload : Bytes) (header : Option String) (appSecret : String) : Prop :=
  ∃ b, isValidSignature payload header appSecret = .ok b ∧
    (b = true ↔ header = some (signaturePrefix ++ digest payload appSecret))

/-- What the handshake may do: give the challenge, or raise the verification error. -/
def HandshakeAnswer (mode token : Option String) (challenge expectedToken : String) : Prop :=
  verifySubscription mode token challenge expectedToken = .ok challenge ∨
    ∃ text, verifySubscription mode token challenge expectedToken =
      .error (.webhookVerification text)

/-! ### Tokens -/

section tokens

variable {signer : TokenSigner} {issued : Set ActionToken} {raw : String} {now : Instant}

theorem tokenAnswer_of_ascii (hjson : signer.codec.Lossless)
    (hunforged : Unforged signer issued raw)
    (h : ∀ p s, raw.toList.splitOn '.' = [p, s] → Ascii (String.ofList s)) :
    TokenAnswer (signer.verify raw now) := by
  by_cases hparts : ∃ p s, raw.toList.splitOn '.' = [p, s]
  · obtain ⟨p, s, hsplit⟩ := hparts
    have hcompare : compareDigest (signer.sign (String.ofList p)) (String.ofList s) =
        .ok (signer.sign (String.ofList p) = String.ofList s) :=
      compareDigest_of_ascii (ascii_hex _) (h p s hsplit)
    by_cases hsign : signer.sign (String.ofList p) = String.ofList s
    · -- the string was issued, so it decodes to its token
      rw [decide_eq_true hsign] at hcompare
      obtain ⟨token, -, rfl⟩ := issued_of_signed hunforged hsplit hcompare
      rw [verify_spelling hjson]
      split_ifs <;> trivial
    · rw [decide_eq_false hsign] at hcompare
      unfold TokenSigner.verify
      rw [hsplit]
      simp only [hcompare]
      trivial
  · unfold TokenSigner.verify
    split
    · rename_i p s hsplit
      exact absurd ⟨p, s, hsplit⟩ hparts
    · trivial

theorem not_tokenAnswer {p s : List Char} (hsplit : raw.toList.splitOn '.' = [p, s])
    (hs : ¬ Ascii (String.ofList s)) : ¬ TokenAnswer (signer.verify raw now) := by
  have hcompare := compareDigest_of_not_ascii (a := signer.sign (String.ofList p)) fun h => hs h.2
  unfold TokenSigner.verify
  rw [hsplit]
  simp only [hcompare]
  exact id

/-- **A second part that is not ASCII** carries no signature, and is not declared malformed. -/
theorem escapes {p s : String} (hp : '.' ∉ p.toList) (hdot : '.' ∉ s.toList) (hs : ¬ Ascii s) :
    Unforged signer issued (p ++ "." ++ s) ∧
      ¬ TokenAnswer (signer.verify (p ++ "." ++ s) now) := by
  constructor
  · rintro payload signature hraw rfl
    obtain ⟨-, rfl⟩ := parts_inj hdot (dot_notMem_hex _) hraw
    exact absurd (ascii_hex _) hs
  · refine not_tokenAnswer (splitOn_dot hp hdot) ?_
    rwa [String.ofList_toList]

end tokens

/-! ### Headers and handshakes -/

theorem signatureAnswer_iff {payload : Bytes} {header : Option String} {appSecret : String} :
    SignatureAnswer payload header appSecret ↔
      ∀ provided, header = some (signaturePrefix ++ provided) → Ascii provided := by
  by_cases hstart : ∃ provided, header = some (signaturePrefix ++ provided)
  · obtain ⟨provided, rfl⟩ := hstart
    have hcancel : ∀ s, (some (signaturePrefix ++ provided) : Option String) =
        some (signaturePrefix ++ s) ↔ provided = s := by
      intro s
      rw [Option.some.injEq, String.append_right_inj]
    unfold SignatureAnswer
    rw [isValidSignature_sha256]
    constructor
    · rintro ⟨b, hb, -⟩ s hs
      rw [hcancel] at hs
      subst hs
      by_contra hascii
      rw [compareDigest_of_not_ascii fun h => hascii h.2] at hb
      cases hb
    · intro h
      refine ⟨_, compareDigest_of_ascii (ascii_hex _) (h provided rfl), ?_⟩
      rw [decide_eq_true_iff, hcancel, eq_comm]
  · have hother : ∀ provided, header ≠ some (signaturePrefix ++ provided) :=
      fun provided h => hstart ⟨provided, h⟩
    refine iff_of_true ⟨false, isValidSignature_other hother, ?_⟩ fun s hs => absurd hs (hother s)
    exact iff_of_false Bool.false_ne_true (hother _)

theorem handshakeAnswer_iff {mode token : Option String} {challenge expectedToken : String}
    (hexpected : Ascii expectedToken) :
    HandshakeAnswer mode token challenge expectedToken ↔
      (mode = some "subscribe" → ∀ s, token = some s → Ascii s) := by
  unfold HandshakeAnswer verifySubscription
  by_cases hmode : mode = some "subscribe"
  · cases token with
    | none => simp [hmode]
    | some s =>
      simp only [hmode, if_true, Option.some.injEq, forall_eq']
      by_cases hs : Ascii s
      · rw [compareDigest_of_ascii hs hexpected]
        by_cases heq : s = expectedToken
        · simp [heq, hexpected]
        · simp [heq, hs]
      · rw [compareDigest_of_not_ascii fun h => hs h.1]
        simp [hs]
  · simp [hmode]

/-! ### The three checks -/

/-- **Exactly the strings that compare ASCII text are rejected by the declared errors**: a token with
one dot and an ASCII second part, or with any other number of dots; a header whose digest is ASCII; a
handshake with an ASCII token, or that is refused before the tokens are compared. -/
theorem declared_iff (signer : TokenSigner) (hjson : signer.codec.Lossless)
    {issued : Set ActionToken} {raw : String} (hunforged : Unforged signer issued raw)
    (now : Instant) (payload : Bytes) (header : Option String) (appSecret : String)
    (mode token : Option String) (challenge : String) {expectedToken : String}
    (hexpected : Ascii expectedToken) :
    (TokenAnswer (signer.verify raw now) ↔
      ∀ p s, raw.toList.splitOn '.' = [p, s] → Ascii (String.ofList s)) ∧
    (SignatureAnswer payload header appSecret ↔
      ∀ provided, header = some (signaturePrefix ++ provided) → Ascii provided) ∧
    (HandshakeAnswer mode token challenge expectedToken ↔
      (mode = some "subscribe" → ∀ s, token = some s → Ascii s)) := by
  refine ⟨⟨fun h p s hsplit => ?_, tokenAnswer_of_ascii hjson hunforged⟩, signatureAnswer_iff,
    handshakeAnswer_iff hexpected⟩
  by_contra hascii
  exact not_tokenAnswer hsplit hascii h

open Sample in
/-- One link of the small instance, one signed body, and one handshake. -/
theorem declared_iff_sample :
    TokenAnswer ((config lossless false).notify.signer.verify
      (spelling (config lossless false).notify.signer approve) start) ∧
    SignatureAnswer (utf8 "\x7b\x7d") (some (signaturePrefix ++ "00")) "secret" ∧
    HandshakeAnswer (some "subscribe") (some "guess") "challenge" "verify-token" := by
  have hexpected : Ascii "verify-token" := ascii_iff.mp (by decide)
  have hiff := declared_iff (config lossless false).notify.signer lossless_lossless
    (unforged_spelling (Set.mem_singleton approve)) start (utf8 "\x7b\x7d")
    (some (signaturePrefix ++ "00")) "secret" (some "subscribe") (some "guess") "challenge"
    hexpected
  refine ⟨hiff.1.mpr fun p s hsplit => ?_, hiff.2.1.mpr fun provided h => ?_,
    hiff.2.2.mpr fun _ s hs => ?_⟩
  · rw [spelling_eq, TokenSigner.splitOn_token] at hsplit
    obtain ⟨-, hs⟩ := List.cons.inj hsplit
    rw [← (List.cons.inj hs).1, String.ofList_toList]
    exact ascii_hex _
  · obtain rfl := (String.append_right_inj _).mp (Option.some.inj h)
    exact ascii_iff.mp (by decide)
  · obtain rfl := Option.some.inj hs
    exact ascii_iff.mp (by decide)

open Sample in
/-- The same three checks on text that is not ASCII. -/
theorem non_ascii_escapes :
    (¬ ∀ (signer : TokenSigner) (issued : Set ActionToken) (raw : String) (now : Instant),
      signer.codec.Lossless → Unforged signer issued raw →
        TokenAnswer (signer.verify raw now)) ∧
    (¬ ∀ payload header appSecret, SignatureAnswer payload header appSecret) ∧
    ¬ ∀ mode token challenge expectedToken, Ascii expectedToken →
      HandshakeAnswer mode token challenge expectedToken := by
  have hascii : ¬ Ascii "é" := fun h => absurd (h 'é' (by decide)) (by decide)
  refine ⟨fun h => ?_, fun h => ?_, fun h => ?_⟩
  · have hp : '.' ∉ "a".toList := by decide
    have hdot : '.' ∉ "é".toList := by decide
    generalize "é" = s at hascii hdot
    obtain ⟨hunforged, hnot⟩ := @escapes _ ∅ start _ _ hp hdot hascii
    exact hnot (h (config lossless false).notify.signer ∅ _ _ lossless_lossless hunforged)
  · exact hascii (signatureAnswer_iff.mp (h [] (some (signaturePrefix ++ "é")) "secret") "é" rfl)
  · have hexpected : Ascii "verify-token" := ascii_iff.mp (by decide)
    exact hascii ((handshakeAnswer_iff hexpected).mp
      (h (some "subscribe") (some "é") "challenge" "verify-token" hexpected) rfl "é" rfl)

end WappPlanner.Api
