import WappPlanner.Orchestrator.Runs

/-! # What a link is good for

The token of a link is what follows the link's last `?token=`. It is written in characters that a URL
query carries as they are, and clicking it gives the action the link was issued for until it expires
(`Resolves`). Base64 is decoded leniently, so two spellings of a payload may decode to one token; but a
signature is over the spelling, and with signatures that nobody forges (`Unforged`) what verifies is,
character for character, a token that was issued (`issued_of_verify`). -/

namespace WappPlanner.Orchestrator.Links

open WappPlanner.Domain.Enums WappPlanner.Domain.Models WappPlanner.Errors
open WappPlanner.Hitl.Messages WappPlanner.Hitl.Service WappPlanner.Hitl.Tokens WappPlanner.Lib
open WappPlanner.Py.Digest WappPlanner.Py.Text WappPlanner.Py.Values WappPlanner.Workflow.Enums

/-- The characters that stand unescaped in the query of a URL. -/
def unreserved (c : Char) : Bool :=
  c.isAlphanum || c = '-' || c = '.' || c = '_' || c = '~'

/-- The text after the last `?token=` of a link. -/
def tokenOf (url : String) : Option String :=
  (Text.afterLast "?token=".toList url.toList).map String.ofList

/-- **A link is for one action**, until its token expires. -/
structure Resolves (service : NotificationService) (url token : String) (rid : String)
    (gate : OwnerInteractionKind) (decision : OwnerDecision) (now : Instant)
    (intent : Option Intent) (revisionNo : ℤ) : Prop where
  token_eq : tokenOf url = some token
  unescaped : ∀ c ∈ token.toList, unreserved c = true
  one_dot : token.toList.count '.' = 1
  live : ∀ t feedback, t < now + service.signer.ttl →
    service.resolveAction token t feedback =
      .ok ⟨rid, gate, decision, actionId token, intent, revisionNo, feedback⟩
  expired : ∀ t feedback, now + service.signer.ttl ≤ t →
    service.resolveAction token t feedback = .error (.expiredToken "token expired")

/-- The string of a token. -/
def spelling (signer : TokenSigner) (token : ActionToken) : String :=
  signer.issue token.requestId token.gate token.decision (token.expiresAt - signer.ttl)
    token.intent token.revisionNo

/-- **Nobody forges signatures**: a string that carries the signature of its first part has the first
part of a token that was issued. -/
def Unforged (signer : TokenSigner) (issued : Set ActionToken) (raw : String) : Prop :=
  ∀ payload signature, raw = payload ++ "." ++ signature → signature = signer.sign payload →
    ∃ token ∈ issued, payload = signer.payload token

/-! ### The characters of a token -/

theorem unreserved_char : ∀ v < 64, unreserved (Base64.char v) = true := by decide

theorem unreserved_hexDigit : ∀ d < 16, unreserved (hexDigit d) = true := by decide

variable {signer : TokenSigner} {service : NotificationService}

theorem unreserved_issue {rid : String} {gate : OwnerInteractionKind} {decision : OwnerDecision}
    {now : Instant} {intent : Option Intent} {n : ℤ} :
    ∀ c ∈ (signer.issue rid gate decision now intent n).toList, unreserved c = true := by
  intro c hc
  unfold TokenSigner.issue at hc
  simp only [String.toList_append, List.mem_append, or_assoc] at hc
  rcases hc with hpayload | hdot | hsign
  · rw [TokenSigner.toList_payload] at hpayload
    obtain ⟨v, hv, rfl⟩ := List.mem_map.mp hpayload
    exact unreserved_char v (Base64.values_lt _ v hv)
  · have hc' : c = '.' := by simpa using hdot
    rw [hc']
    decide
  · obtain ⟨d, hd, rfl⟩ := mem_hex hsign
    exact unreserved_hexDigit d hd

theorem count_dot_issue {rid : String} {gate : OwnerInteractionKind} {decision : OwnerDecision}
    {now : Instant} {intent : Option Intent} {n : ℤ} :
    (signer.issue rid gate decision now intent n).toList.count '.' = 1 := by
  have hpayload := List.count_eq_zero.mpr (@TokenSigner.dot_notMem_payload signer
    ⟨rid, gate, decision, now + signer.ttl, intent, n⟩)
  have hsign := List.count_eq_zero.mpr (dot_notMem_hex
    (hmacSha256 (utf8 signer.secret)
      (utf8 (signer.payload ⟨rid, gate, decision, now + signer.ttl, intent, n⟩))))
  unfold TokenSigner.issue TokenSigner.sign
  simp only [String.toList_append, List.count_append, hpayload, hsign]
  rfl

theorem tokenOf_link {token : String} (h : ∀ c ∈ token.toList, unreserved c = true)
    (baseUrl : String) : tokenOf (link baseUrl token) = some token := by
  have hmark : "?token=".toList = '?' :: "token=".toList := rfl
  have htail : '?' ∉ token.toList := by
    intro hmem
    have hfalse := h _ hmem
    revert hfalse
    decide
  unfold tokenOf link
  rw [String.toList_append, String.toList_append, hmark,
    Text.afterLast_append (by decide) htail, Option.map_some, String.ofList_toList]

/-! ### What a link resolves to -/

theorem resolves_link (hjson : service.signer.codec.Lossless) (baseUrl rid : String)
    (gate : OwnerInteractionKind) (decision : OwnerDecision) (now : Instant)
    (intent : Option Intent) (n : ℤ) :
    Resolves service (link baseUrl (service.signer.issue rid gate decision now intent n))
      (service.signer.issue rid gate decision now intent n) rid gate decision now intent n where
  token_eq := tokenOf_link unreserved_issue baseUrl
  unescaped := unreserved_issue
  one_dot := count_dot_issue
  live _ feedback ht := NotificationService.resolveAction_issue hjson ht feedback
  expired t feedback ht := by
    unfold NotificationService.resolveAction
    rw [TokenSigner.verify_issue_eq hjson, if_pos ht]
    rfl

/-! ### The links of a prompt -/

theorem classificationLinks_eq (baseUrl : String) (r : Request) (now : Instant) :
    classificationLinks baseUrl signer r now = classificationChoices.map fun choice =>
      (choice.1, link baseUrl
        (signer.issue r.id .classification choice.2.1 now choice.2.2 0)) := by
  unfold classificationLinks classificationTokens
  rw [List.map_map]
  rfl

theorem approvalLinks_eq (baseUrl : String) (r : Request) (now : Instant) (n : ℕ) :
    approvalLinks baseUrl signer r now n = approvalChoices.map fun choice =>
      (choice.1, link baseUrl (signer.issue r.id .approval choice.2 now none n)) := by
  unfold approvalLinks approvalTokens
  rw [List.map_map]
  rfl

/-- **The links of one prompt carry different tokens.** -/
theorem nodup_links {α : Type} (hjson : service.signer.codec.Lossless) (baseUrl rid : String)
    (gate : OwnerInteractionKind) (now : Instant) (n : ℤ) (choices : List α)
    (label : α → String) (decision : α → OwnerDecision) (intent : α → Option Intent)
    (h : (choices.map fun c => (decision c, intent c)).Nodup) :
    ((choices.map fun c => (label c, link baseUrl
      (service.signer.issue rid gate (decision c) now (intent c) n))).map
        fun sent => tokenOf sent.2).Nodup := by
  rw [List.map_map]
  refine List.Nodup.map_on ?_ h.of_map
  intro c hc c' hc' heq
  simp only [Function.comp_apply, tokenOf_link unreserved_issue, Option.some.injEq] at heq
  obtain ⟨-, -, hdecision, -, hintent, -⟩ := TokenSigner.issue_injective hjson heq
  exact List.inj_on_of_nodup_map h hc hc' (Prod.ext hdecision hintent)

/-! ### What verifies was issued -/

theorem spelling_eq (token : ActionToken) :
    spelling signer token =
      signer.payload token ++ "." ++ signer.sign (signer.payload token) := by
  unfold spelling TokenSigner.issue
  dsimp only
  rw [sub_add_cancel]

theorem verify_spelling (hjson : signer.codec.Lossless) (token : ActionToken) (t : Instant) :
    signer.verify (spelling signer token) t =
      if token.expiresAt ≤ t then .error (.expiredToken "token expired") else .ok token := by
  unfold spelling
  rw [TokenSigner.verify_issue_eq hjson, sub_add_cancel]

theorem eq_of_splitOn_dot {raw : String} {p s : List Char} (h : raw.toList.splitOn '.' = [p, s]) :
    raw = String.ofList p ++ "." ++ String.ofList s := by
  have hjoin : ['.'].intercalate (raw.toList.splitOn '.') = raw.toList :=
    List.intercalate_splitOn '.'
  rw [h] at hjoin
  apply String.toList_inj.mp
  rw [← hjoin]
  simp [List.intercalate]

theorem eq_of_compareDigest {a b : String} (h : compareDigest a b = .ok true) : a = b := by
  unfold compareDigest at h
  split at h
  · simpa using h
  · cases h

theorem issued_of_signed {issued : Set ActionToken} {p s : List Char} {raw : String}
    (hunforged : Unforged signer issued raw) (hsplit : raw.toList.splitOn '.' = [p, s])
    (hsign : compareDigest (signer.sign (String.ofList p)) (String.ofList s) = .ok true) :
    ∃ token ∈ issued, raw = spelling signer token := by
  have hraw := eq_of_splitOn_dot hsplit
  have hs := eq_of_compareDigest hsign
  obtain ⟨token, htoken, hp⟩ := hunforged _ _ hraw hs.symm
  exact ⟨token, htoken, by rw [spelling_eq, hraw, ← hs, hp]⟩

/-- **What verifies is a token that was issued**, character for character. -/
theorem issued_of_verify (hjson : signer.codec.Lossless) {issued : Set ActionToken} {raw : String}
    {t : Instant} {token : ActionToken} (hunforged : Unforged signer issued raw)
    (h : signer.verify raw t = .ok token) : token ∈ issued ∧ raw = spelling signer token := by
  have hverify := h
  unfold TokenSigner.verify at h
  split at h
  · rename_i p s hsplit
    split at h
    · cases h
    · cases h
    · rename_i hsign
      obtain ⟨token', htoken', rfl⟩ := issued_of_signed hunforged hsplit hsign
      rw [verify_spelling hjson] at hverify
      split at hverify
      · cases hverify
      · obtain rfl := Except.ok.inj hverify
        exact ⟨htoken', rfl⟩
  · cases h

theorem parts_inj {p s p' s' : String} (hs : '.' ∉ s.toList) (hs' : '.' ∉ s'.toList)
    (h : p ++ "." ++ s = p' ++ "." ++ s') : p = p' ∧ s = s' := by
  have hlists := congrArg String.toList h
  simp only [String.append_assoc, String.toList_append] at hlists
  have hne : ∀ {t : String}, '.' ∉ t.toList → ∀ c ∈ t.toList, decide (c ≠ '.') = true :=
    fun ht c hc => decide_eq_true (ne_of_mem_of_not_mem hc ht)
  obtain ⟨hp, -, htail⟩ := Text.append_tail_inj (by decide) (by decide) (hne hs) (hne hs') hlists
  exact ⟨String.toList_inj.mp hp, String.toList_inj.mp htail⟩

theorem unforged_spelling {issued : Set ActionToken} {token : ActionToken} (h : token ∈ issued) :
    Unforged signer issued (spelling signer token) := by
  rintro payload signature hraw rfl
  rw [spelling_eq] at hraw
  exact ⟨token, h, (parts_inj (dot_notMem_hex _) (dot_notMem_hex _) hraw).1.symm⟩

/-! ### The two prompts -/

/-- **Every link resolves to exactly the action it was issued for**, until it expires; the tokens of
one prompt differ; and what verifies at all is, character for character, a token that was issued, so
that no other spelling of it has another action id. -/
theorem links_exact (hjson : service.signer.codec.Lossless) (baseUrl : String) (r : Request)
    (now : Instant) (n : ℕ) :
    List.Forall₂ (fun choice sent => sent.1 = choice.1 ∧ ∃ token,
        Resolves service sent.2 token r.id .classification choice.2.1 now choice.2.2 0)
      classificationChoices (classificationLinks baseUrl service.signer r now) ∧
    List.Forall₂ (fun choice sent => sent.1 = choice.1 ∧ ∃ token,
        Resolves service sent.2 token r.id .approval choice.2 now none n)
      approvalChoices (approvalLinks baseUrl service.signer r now n) ∧
    ((classificationLinks baseUrl service.signer r now).map fun sent => tokenOf sent.2).Nodup ∧
    ((approvalLinks baseUrl service.signer r now n).map fun sent => tokenOf sent.2).Nodup ∧
    ∀ (issued : Set ActionToken) (raw : String) (t : Instant) (token : ActionToken),
      Unforged service.signer issued raw → service.signer.verify raw t = .ok token →
        (token ∈ issued ∧ raw = spelling service.signer token) ∧
          ∀ raw' t', Unforged service.signer issued raw' →
            service.signer.verify raw' t' = .ok token → actionId raw' = actionId raw := by
  refine ⟨?_, ?_, ?_, ?_, fun issued raw t token hunforged h => ?_⟩
  · rw [classificationLinks_eq, List.forall₂_map_right_iff]
    exact List.forall₂_same.mpr fun choice _ => ⟨rfl, _, resolves_link hjson baseUrl ..⟩
  · rw [approvalLinks_eq, List.forall₂_map_right_iff]
    exact List.forall₂_same.mpr fun choice _ => ⟨rfl, _, resolves_link hjson baseUrl ..⟩
  · rw [classificationLinks_eq]
    exact nodup_links hjson baseUrl r.id .classification now 0 classificationChoices (·.1) (·.2.1)
      (·.2.2) (by decide)
  · rw [approvalLinks_eq]
    exact nodup_links hjson baseUrl r.id .approval now n approvalChoices (·.1) (·.2)
      (fun _ => none) (by decide)
  · have hissued := issued_of_verify hjson hunforged h
    refine ⟨hissued, fun raw' t' hunforged' h' => ?_⟩
    rw [(issued_of_verify hjson hunforged' h').2, hissued.2]

open Sample in
/-- The token that approves the first revision of the small instance. -/
def approve : ActionToken :=
  ⟨"r1", .approval, .approve, start + seconds ttl, none, 1⟩

open Sample in
/-- The links of the first revision of `r1`, and the one spelling of the token that approves it. -/
theorem links_exact_approval :
    List.Forall₂ (fun choice sent => sent.1 = choice.1 ∧ ∃ token,
        Resolves (config lossless false).notify sent.2 token "r1" .approval choice.2 start none 1)
      approvalChoices
      (approvalLinks "https://planner.example/" (config lossless false).notify.signer
        (batch "r1" start).request start 1) ∧
    ∀ raw' t', Unforged (config lossless false).notify.signer {approve} raw' →
      (config lossless false).notify.signer.verify raw' t' = .ok approve →
        actionId raw' = actionId (spelling (config lossless false).notify.signer approve) := by
  have hlinks := @links_exact (config lossless false).notify lossless_lossless
    "https://planner.example/" (batch "r1" start).request start 1
  have hverify : (config lossless false).notify.signer.verify
      (spelling (config lossless false).notify.signer approve) start = .ok approve := by
    rw [verify_spelling lossless_lossless, if_neg (by decide)]
  exact ⟨hlinks.2.1, (hlinks.2.2.2.2 {approve} _ start approve
    (unforged_spelling (Set.mem_singleton _)) hverify).2⟩

end WappPlanner.Orchestrator.Links
