import WappPlanner.Lib.Base64
import WappPlanner.Domain.Enums
import WappPlanner.Py.Digest

/-! # Action tokens

`hitl/tokens.py`: a token is the base64 of its JSON, stripped of padding, a dot, and the HMAC of
the first part in hexadecimal. The JSON form of a token is a parameter; `TokenCodec.Lossless` says
that the JSON of a token is read back as that token.

* `verify_issue`: an issued token verifies until it expires.
* `issue_injective`: different actions or instants give different tokens. -/

namespace WappPlanner.Hitl.Tokens

open WappPlanner.Domain.Enums WappPlanner.Errors WappPlanner.Lib WappPlanner.Py.Digest
open WappPlanner.Py.Text WappPlanner.Py.Values WappPlanner.Workflow.Enums

/-- The signed authorization payload for one owner action. -/
structure ActionToken where
  requestId : String
  gate : OwnerInteractionKind
  decision : OwnerDecision
  expiresAt : Instant
  intent : Option Intent
  revisionNo : ℤ
  deriving DecidableEq

/-- `model_dump_json` and `model_validate_json` of `ActionToken`. -/
structure TokenCodec where
  modelDumpJson : ActionToken → String
  modelValidateJson : Bytes → Except Exn ActionToken

/-- What is dumped is read back. -/
def TokenCodec.Lossless (codec : TokenCodec) : Prop :=
  ∀ token, codec.modelValidateJson (utf8 (codec.modelDumpJson token)) = .ok token

/-- Issues and verifies tokens with an HMAC secret. -/
structure TokenSigner where
  secret : String
  ttlSeconds : ℤ
  codec : TokenCodec

/-- `base64.urlsafe_b64decode` of a string. -/
def urlsafeB64decode (cs : List Char) : Except Exn Bytes :=
  if cs.all (·.toNat < 128) then
    match Base64.decode cs with
    | .ok bs => .ok bs
    | .error .incorrectPadding => .error (.valueError "Incorrect padding")
    | .error .oneTooMany =>
      .error (.valueError ("Invalid base64-encoded string: number of data characters (" ++
        natText (cs.countP fun c => (Base64.value c).isSome) ++
        ") cannot be 1 more than a multiple of 4"))
  else .error (.valueError "string argument should contain only ASCII characters")

namespace TokenSigner

variable (signer : TokenSigner)

def ttl : ℤ := seconds signer.ttlSeconds

def sign (payloadB64 : String) : String :=
  hex (hmacSha256 (utf8 signer.secret) (utf8 payloadB64))

/-- The first part of a token. -/
def payload (token : ActionToken) : String :=
  String.ofList (Base64.stripPad (Base64.encode (utf8 (signer.codec.modelDumpJson token))))

/-- A signed token string, expiring `ttl` from `now`. -/
def issue (requestId : String) (gate : OwnerInteractionKind) (decision : OwnerDecision)
    (now : Instant) (intent : Option Intent) (revisionNo : ℤ) : String :=
  let payloadB64 :=
    signer.payload ⟨requestId, gate, decision, now + signer.ttl, intent, revisionNo⟩
  payloadB64 ++ "." ++ signer.sign payloadB64

/-- Verify signature and expiry. -/
def verify (raw : String) (now : Instant) : Except Exn ActionToken :=
  match raw.toList.splitOn '.' with
  | [payload, signature] =>
    match compareDigest (signer.sign (String.ofList payload)) (String.ofList signature) with
    | .error exc => .error exc
    | .ok false => .error (.invalidToken "signature mismatch")
    | .ok true => do
      let padded := Base64.repad payload
      let token ← signer.codec.modelValidateJson (← urlsafeB64decode padded)
      if token.expiresAt ≤ now then .error (.expiredToken "token expired")
      return token
  | _ => .error (.invalidToken "malformed token")

end TokenSigner

/-! ### Digests and alphabets -/

theorem mem_hexText {c : Char} : ∀ {width n : ℕ}, c ∈ hexText width n → ∃ d < 16, c = hexDigit d
  | 0, n, h => by simp [hexText] at h
  | w + 1, n, h => by
    rcases List.mem_append.mp h with h | h
    · exact mem_hexText h
    · exact ⟨n % 16, Nat.mod_lt _ (by decide), List.mem_singleton.mp h⟩

theorem mem_hex {c : Char} {bs : Bytes} (h : c ∈ (hex bs).toList) : ∃ d < 16, c = hexDigit d := by
  rw [hex, String.toList_ofList] at h
  obtain ⟨b, -, hc⟩ := List.mem_flatMap.mp h
  exact mem_hexText hc

theorem hexDigit_ne_dot : ∀ d < 16, hexDigit d ≠ '.' := by decide

theorem dot_notMem_hex (bs : Bytes) : '.' ∉ (hex bs).toList := by
  intro hdot
  obtain ⟨d, hd, h⟩ := mem_hex hdot
  exact hexDigit_ne_dot d hd h.symm

theorem hexDigit_ascii : ∀ d < 16, (hexDigit d).toNat < 128 := by decide

theorem compareDigest_hex (bs : Bytes) : compareDigest (hex bs) (hex bs) = .ok true := by
  have hascii : (hex bs).toList.all (·.toNat < 128) = true := by
    rw [List.all_eq_true]
    intro c hc
    obtain ⟨d, hd, rfl⟩ := mem_hex hc
    simpa using hexDigit_ascii d hd
  unfold compareDigest
  rw [hascii]
  simp

theorem char_ascii : ∀ v < 64, (Base64.char v).toNat < 128 := by decide

theorem ascii_repad_stripped (bs : Bytes) :
    (Base64.repad (Base64.stripped bs)).all (·.toNat < 128) = true := by
  rw [List.all_eq_true]
  intro c hc
  rcases List.mem_append.mp hc with hc | hc
  · obtain ⟨v, hv, rfl⟩ := List.mem_map.mp hc
    simpa using char_ascii v (Base64.values_lt bs v hv)
  · rw [List.eq_of_mem_replicate hc]
    decide

theorem urlsafeB64decode_repad_stripped (bs : Bytes) :
    urlsafeB64decode (Base64.repad (Base64.stripped bs)) = .ok bs := by
  unfold urlsafeB64decode
  rw [if_pos (ascii_repad_stripped bs), Base64.decode_repad_stripped]

theorem splitOn_dot {p s : String} (hp : '.' ∉ p.toList) (hs : '.' ∉ s.toList) :
    (p ++ "." ++ s).toList.splitOn '.' = [p.toList, s.toList] := by
  have hparts : ∀ part ∈ [p.toList, s.toList], '.' ∉ part := by simp [hp, hs]
  rw [← List.splitOn_intercalate '.' hparts (by simp)]
  simp [List.intercalate]

/-! ### Issued tokens -/

namespace TokenSigner

variable {signer : TokenSigner}

theorem toList_payload (token : ActionToken) :
    (signer.payload token).toList = Base64.stripped (utf8 (signer.codec.modelDumpJson token)) := by
  rw [payload, String.toList_ofList, Base64.stripPad_encode]

theorem dot_notMem_payload (token : ActionToken) : '.' ∉ (signer.payload token).toList := by
  rw [toList_payload]
  exact Base64.notMem_stripped (by decide) _

theorem splitOn_token (token : ActionToken) :
    (signer.payload token ++ "." ++ signer.sign (signer.payload token)).toList.splitOn '.' =
      [(signer.payload token).toList, (signer.sign (signer.payload token)).toList] :=
  splitOn_dot (dot_notMem_payload token) (dot_notMem_hex _)

theorem verify_issue_eq (hjson : signer.codec.Lossless) (requestId : String)
    (gate : OwnerInteractionKind) (decision : OwnerDecision) (now now' : Instant)
    (intent : Option Intent) (revisionNo : ℤ) :
    signer.verify (signer.issue requestId gate decision now intent revisionNo) now' =
      if now + signer.ttl ≤ now' then .error (.expiredToken "token expired")
      else .ok ⟨requestId, gate, decision, now + signer.ttl, intent, revisionNo⟩ := by
  unfold verify issue
  simp only [splitOn_token, String.ofList_toList]
  rw [sign, compareDigest_hex]
  simp only [toList_payload, urlsafeB64decode_repad_stripped]
  change (do
    let token ← signer.codec.modelValidateJson _
    _) = _
  rw [hjson]
  rfl

/-- **An issued token verifies** until it expires. -/
theorem verify_issue (hjson : signer.codec.Lossless) {requestId : String}
    {gate : OwnerInteractionKind} {decision : OwnerDecision} {now now' : Instant}
    {intent : Option Intent} {revisionNo : ℤ} (hlive : now' < now + signer.ttl) :
    signer.verify (signer.issue requestId gate decision now intent revisionNo) now' =
      .ok ⟨requestId, gate, decision, now + signer.ttl, intent, revisionNo⟩ := by
  rw [verify_issue_eq hjson, if_neg (not_le.mpr hlive)]

theorem payload_injective (hjson : signer.codec.Lossless) {token token' : ActionToken}
    (h : signer.payload token = signer.payload token') : token = token' := by
  have hlist := congrArg String.toList h
  rw [toList_payload, toList_payload] at hlist
  have hread := hjson token
  rw [Base64.stripped_injective hlist, hjson token'] at hread
  exact (Except.ok.inj hread).symm

/-- **Different actions or instants give different tokens.** -/
theorem issue_injective (hjson : signer.codec.Lossless) {rid rid' : String}
    {gate gate' : OwnerInteractionKind} {d d' : OwnerDecision} {now now' : Instant}
    {intent intent' : Option Intent} {n n' : ℤ}
    (h : signer.issue rid gate d now intent n = signer.issue rid' gate' d' now' intent' n') :
    rid = rid' ∧ gate = gate' ∧ d = d' ∧ now = now' ∧ intent = intent' ∧ n = n' := by
  have hsplit := congrArg (fun s : String => s.toList.splitOn '.') h
  simp only [issue, splitOn_token, List.cons.injEq, String.toList_inj] at hsplit
  have htoken := payload_injective hjson hsplit.1
  simp only [ActionToken.mk.injEq, add_left_inj] at htoken
  exact htoken

end TokenSigner

end WappPlanner.Hitl.Tokens
