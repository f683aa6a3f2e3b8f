import WappPlanner.Hitl.Tokens

/-! # Webhook verification

`ingestion/signature.py`: the subscription handshake and the signature of a webhook body. Both compare
text with `hmac.compare_digest`, which raises on text that is not ASCII. -/

namespace WappPlanner.Ingestion.Signature

open WappPlanner.Errors WappPlanner.Hitl.Tokens WappPlanner.Py.Digest WappPlanner.Py.Text
open WappPlanner.Py.Values

def signaturePrefix : String := "sha256="

/-- The challenge, if the subscription handshake is valid. -/
def verifySubscription (mode token : Option String) (challenge expectedToken : String) :
    Except Exn String :=
  let refused := .error (.webhookVerification "invalid webhook verification request")
  if mode = some "subscribe" then
    match token with
    | none => refused
    | some token =>
      match compareDigest token expectedToken with
      | .error exc => .error exc
      | .ok true => .ok challenge
      | .ok false => refused
  else refused

/-- The digest a valid header carries. -/
def digest (payload : Bytes) (appSecret : String) : String :=
  hex (hmacSha256 (utf8 appSecret) payload)

/-- Validate the signature header of a payload. -/
def isValidSignature (payload : Bytes) (signatureHeader : Option String) (appSecret : String) :
    Except Exn Bool :=
  match signatureHeader with
  | none => .ok false
  | some header =>
    if header = "" || !signaturePrefix.toList.isPrefixOf header.toList then .ok false
    else
      let provided := String.ofList (header.toList.drop signaturePrefix.length)
      compareDigest (digest payload appSecret) provided

/-- Text that `hmac.compare_digest` takes. -/
def Ascii (s : String) : Prop := ∀ c ∈ s.toList, c.toNat < 128

/-! ### Comparing digests -/

theorem ascii_iff {s : String} : s.toList.all (·.toNat < 128) = true ↔ Ascii s := by
  simp [Ascii]

theorem ascii_hex (bs : Bytes) : Ascii (hex bs) := by
  intro c hc
  obtain ⟨d, hd, rfl⟩ := mem_hex hc
  exact hexDigit_ascii d hd

theorem compareDigest_of_ascii {a b : String} (ha : Ascii a) (hb : Ascii b) :
    compareDigest a b = .ok (a = b) := by
  unfold compareDigest
  rw [ascii_iff.mpr ha, ascii_iff.mpr hb]
  rfl

/-- **Comparing anything else raises.** -/
theorem compareDigest_of_not_ascii {a b : String} (h : ¬ (Ascii a ∧ Ascii b)) :
    compareDigest a b =
      .error (.typeError "comparing strings with non-ASCII characters is not supported") := by
  unfold compareDigest
  rw [if_neg]
  rwa [Bool.and_eq_true, ascii_iff, ascii_iff]

/-! ### Headers -/

variable {payload : Bytes} {appSecret : String}

theorem isValidSignature_sha256 (provided : String) :
    isValidSignature payload (some (signaturePrefix ++ provided)) appSecret =
      compareDigest (digest payload appSecret) provided := by
  have hlist : (signaturePrefix ++ provided).toList = signaturePrefix.toList ++ provided.toList :=
    String.toList_append
  have hne : signaturePrefix ++ provided ≠ "" := by
    intro h
    have hnil := congrArg String.toList h
    rw [hlist] at hnil
    exact absurd (List.append_eq_nil_iff.mp hnil).1 (by decide)
  have hstart : signaturePrefix.toList.isPrefixOf (signaturePrefix ++ provided).toList = true := by
    rw [hlist]
    exact List.isPrefixOf_iff_prefix.mpr (List.prefix_append _ _)
  have hdrop : (signaturePrefix ++ provided).toList.drop signaturePrefix.length =
      provided.toList := by
    rw [hlist]
    exact List.drop_left' rfl
  unfold isValidSignature
  simp only [hstart, hdrop, decide_eq_false hne, Bool.not_true, Bool.or_false,
    Bool.false_eq_true, if_false, String.ofList_toList]

theorem isValidSignature_other {header : Option String}
    (h : ∀ provided, header ≠ some (signaturePrefix ++ provided)) :
    isValidSignature payload header appSecret = .ok false := by
  cases header with
  | none => rfl
  | some header =>
    have hstart : signaturePrefix.toList.isPrefixOf header.toList = false := by
      refine Bool.eq_false_iff.mpr fun hstarts => ?_
      obtain ⟨provided, hlist⟩ := List.isPrefixOf_iff_prefix.mp hstarts
      refine h (String.ofList provided) (congrArg some (String.toList_inj.mp ?_))
      rw [String.toList_append, String.toList_ofList, hlist]
    unfold isValidSignature
    simp only [hstart, Bool.not_false, Bool.or_true, if_true]

end WappPlanner.Ingestion.Signature
