import WappPlanner.Orchestrator.Intents

/-! # What a confirmation confirms

A notification announces an intent, but its Confirm link names none: the click confirms the intent
the request has by then. Since the notification that intent has been written by corrections alone
(`NoticeInv`), so the confirmations of a run confirm what their notifications announced if and only
if the last correction since, if there was one, names the announced intent (`as_shown_iff`). -/

namespace WappPlanner.Orchestrator

open WappPlanner.Documents.Generation WappPlanner.Domain.Enums WappPlanner.Domain.Models
open WappPlanner.Errors WappPlanner.Hitl.Messages WappPlanner.Hitl.Service
open WappPlanner.Hitl.Tokens WappPlanner.Lib.Programs WappPlanner.Lib.Runs
open WappPlanner.Nlp.Classification WappPlanner.Persistence.InMemory WappPlanner.Py.Text
open WappPlanner.Py.Values WappPlanner.Workflow.Enums WappPlanner.Workflow.StateMachine

/-- The request, the classification and the instant of a notification. -/
def noticeOf : Entry Op → Option (Request × ClassificationResult × Instant)
  | ⟨_, .notifyClassification r _ result t, _⟩ => some (r, result, t)
  | _ => none

variable (cfg : Config)

/-- `a` was resolved from the Confirm link of a notification that an invocation composed, and that
announced `intent`. -/
def ConfirmedFrom (e : World × Call) (a : OwnerAction) (intent : Intent) : Prop :=
  ∃ r result t, (r, result, t) ∈ (performed cfg e).filterMap noticeOf ∧ result.intent = intent ∧
    ∃ token, ("Confirm", token) ∈ classificationTokens cfg.notify.signer r t ∧
      ∃ now feedback, cfg.notify.resolveAction token now feedback = .ok a

/-- **A confirmation confirms what was shown**: when one takes effect, the intent of the request, for
which its document is generated, is the one announced with the clicked link. -/
def AsShown (past : List (World × Call)) (w : World) (c : Call) : Prop :=
  ∀ a now env, c = .action a now env → Accepted w a → ∀ e ∈ past, ∀ intent,
    ConfirmedFrom cfg e a intent →
      (∀ r, w.repo.getRequest a.requestId = some r → r.intent = some intent) ∧
        ∀ args ∈ (performed cfg (w, c)).filterMap askedFor, args.intent = some intent

/-- The intent that an accepted correction of a request names. -/
def correctionOf (rid : String) : World × Call → Option (Option Intent)
  | (_, .ingest _ _) => none
  | (w, .action a _ _) =>
    if a.requestId = rid ∧ a.decision = .correct ∧ Accepted w a then some a.intent else none

/-- The intent that the last accepted correction of a request names, among some invocations. -/
def lastCorrection (rid : String) (es : List (World × Call)) : Option (Option Intent) :=
  (es.filterMap (correctionOf rid)).getLast?

/-- No click on the Confirm link of a notification is accepted when the last correction since names
another intent than the notification. -/
def UpToDate (past : List (World × Call)) (w : World) (c : Call) : Prop :=
  ∀ a now env, c = .action a now env → Accepted w a → ∀ before e after,
    past = before ++ e :: after → ∀ intent, ConfirmedFrom cfg e a intent →
      ∀ named ∈ lastCorrection a.requestId after, named = some intent

variable {cfg} {w : World}

/-! ### Corrections -/

theorem lastCorrection_concat (rid : String) (es : List (World × Call)) (e : World × Call) :
    lastCorrection rid (es ++ [e]) = (correctionOf rid e).or (lastCorrection rid es) := by
  unfold lastCorrection
  rw [List.filterMap_append]
  cases h : correctionOf rid e <;> simp [h]

theorem correctionOf_elsewhere {rid : String} {c : Call} (hne : rid ≠ c.requestId) :
    correctionOf rid (w, c) = none := by
  cases c with
  | ingest b env => rfl
  | action a now env => exact if_neg fun h => hne h.1.symm

variable (cfg) in
/-- **The intent of a request is written by corrections alone.** -/
theorem intent_step (hw : Wf w) {c : Call} (hfresh : Fresh w c) {rid : String} {r : Request}
    (hr : w.repo.requests rid = some r) :
    ∃ r', (step cfg w c).repo.requests rid = some r' ∧
      r'.intent = (correctionOf rid (w, c)).getD r.intent := by
  by_cases hne : rid = c.requestId
  · subst hne
    cases intentStep cfg hw c with
    | entered b env =>
      have hnone : w.repo.requests b.aggregated.requestId = none := hfresh
      rw [Call.requestId, hnone] at hr
      cases hr
    | ignored a now env hacc hreq =>
      refine ⟨r, hreq.trans hr, ?_⟩
      rw [correctionOf, if_neg fun h => hacc h.2.2, Option.getD_none]
    | corrected a now env r' hacc hd hr' hintent =>
      refine ⟨r', hr', ?_⟩
      rw [correctionOf, if_pos ⟨rfl, hd, hacc⟩, Option.getD_some, hintent]
    | kept a now env r₀ r' hacc hd hr₀ hr' hintent =>
      obtain rfl := Option.some.inj (hr.symm.trans hr₀)
      refine ⟨r', hr', ?_⟩
      rw [correctionOf, if_neg fun h => hd h.2.1, Option.getD_none, hintent]
    | made a now env r₀ r' revision content hacc hd hr₀ hr' hintent =>
      obtain rfl := Option.some.inj (hr.symm.trans hr₀)
      refine ⟨r', hr', ?_⟩
      have hne : a.decision ≠ .correct := by
        intro hcorrect
        simp [startsPipeline, hcorrect] at hd
      rw [correctionOf, if_neg fun h => hne h.2.1, Option.getD_none, hintent]
  · refine ⟨r, ((step_local hw c).requests hne).trans hr, ?_⟩
    rw [correctionOf_elsewhere hne, Option.getD_none]

/-! ### Notifications -/

theorem noticeOf_quiet {args : GenerateArgs} {es : List (Entry Op)} (h : ∀ e ∈ es, Quiet args e) :
    es.filterMap noticeOf = [] := by
  refine List.filterMap_eq_nil_iff.mpr fun e he => ?_
  have hq := h e he
  obtain ⟨β, o, b⟩ := e
  cases o <;> first | rfl | exact hq.elim

/-- **A notification announces the intent of its request.** -/
theorem notice_step {c : Call} {r : Request} {result : ClassificationResult} {t : Instant}
    (h : (r, result, t) ∈ (performed cfg (w, c)).filterMap noticeOf) :
    ∃ r', (step cfg w c).repo.requests r.id = some r' ∧ r'.intent = some result.intent := by
  unfold performed at h
  unfold step
  cases c with
  | ingest b env =>
    have ho := ingest_outcome cfg w b env
    dsimp only at h
    generalize outcome cfg w (.ingest b env) = o at ho h ⊢
    cases ho with
    | unclassified => cases h
    | silent => cases h
    | told result' hres =>
      have hmem : (r, result, t) ∈ [(settledRequest cfg env b result', result', b.now)] := h
      obtain ⟨rfl, hrest⟩ := Prod.mk.inj (List.mem_singleton.mp hmem)
      obtain ⟨rfl, rfl⟩ := Prod.mk.inj hrest
      exact ⟨settledRequest cfg env b result, by simp, rfl⟩
  | action a now env =>
    have ho := action_outcome cfg w a now env
    dsimp only at h
    generalize outcome cfg w (.action a now env) = o at ho h ⊢
    cases ho with
    | unknown | duplicate | refused => cases h
    | accepted r₀ hr hfresh hgate o ho =>
      cases ho with
      | settled | unnamed => cases h
      | corrected hd intent =>
        have hmem : (r, result, t) ∈ [(withIntent (r₀.moved (target a.decision) now) intent,
            correction intent, now)] := h
        obtain ⟨rfl, hrest⟩ := Prod.mk.inj (List.mem_singleton.mp hmem)
        obtain ⟨rfl, rfl⟩ := Prod.mk.inj hrest
        exact ⟨withIntent (r₀.moved (target a.decision) t) intent, by simp, rfl⟩
      | pipeline hd lookups hlookups o ho =>
        have hrest : (r, result, t) ∈ (lookups ++ o.trace).filterMap noticeOf := h
        rw [List.filterMap_append, noticeOf_quiet hlookups, List.nil_append] at hrest
        cases ho with
        | failed => cases hrest
        | stopped exc w' trace hgen hexc hrepo houtbox hstorage htrace =>
          rw [noticeOf_quiet htrace] at hrest
          cases hrest
        | made p hp work hwork =>
          rw [List.filterMap_append, noticeOf_quiet hwork, List.nil_append] at hrest
          cases hrest

/-! ### Whole runs -/

/-- Since a notification, the intent of its request was written by corrections alone. -/
structure NoticeInv (cfg : Config) (w : World) (past : List (World × Call)) : Prop where
  wf : Wf w
  intent : ∀ before e after, past = before ++ e :: after → ∀ r result t,
    (r, result, t) ∈ (performed cfg e).filterMap noticeOf → ∃ r', w.repo.requests r.id = some r' ∧
      r'.intent = (lastCorrection r.id after).getD (some result.intent)

theorem noticeInv_initial : NoticeInv cfg World.initial [] :=
  ⟨wf_initial, fun before e after h => by simp at h⟩

theorem NoticeInv.step {past : List (World × Call)} (h : NoticeInv cfg w past) {c : Call}
    (hfresh : Fresh w c) : NoticeInv cfg (step cfg w c) (past ++ [(w, c)]) := by
  refine ⟨wf_step h.wf c, fun before e after hpast r result t hnotice => ?_⟩
  rcases List.eq_nil_or_concat after with rfl | ⟨after, e', rfl⟩
  · obtain ⟨-, hlast⟩ := List.append_inj' hpast rfl
    obtain rfl := (List.cons.inj hlast).1
    exact notice_step hnotice
  · rw [List.concat_eq_append, ← List.cons_append, ← List.append_assoc] at hpast
    obtain ⟨hbefore, hlast⟩ := List.append_inj' hpast rfl
    obtain rfl := (List.cons.inj hlast).1
    obtain ⟨r', hr', hintent⟩ := h.intent before e after hbefore r result t hnotice
    obtain ⟨r'', hr'', hintent'⟩ := intent_step cfg h.wf hfresh hr'
    refine ⟨r'', hr'', ?_⟩
    rw [hintent', hintent, List.concat_eq_append, lastCorrection_concat]
    cases correctionOf r.id (w, c) <;> rfl

theorem noticeInv_run {cs : List Call} (hids : (ingestIds cs).Nodup) :
    NoticeInv cfg (run (step cfg) World.initial cs) (history (step cfg) World.initial cs) :=
  history_inv (fun _ _ _ h hfresh => h.step hfresh) noticeInv_initial (fresh_of_nodup hids)

theorem ConfirmedFrom.request (hjson : cfg.notify.signer.codec.Lossless) {e : World × Call}
    {a : OwnerAction} {intent : Intent} (h : ConfirmedFrom cfg e a intent) :
    ∃ r result t, (r, result, t) ∈ (performed cfg e).filterMap noticeOf ∧ result.intent = intent ∧
      a.requestId = r.id := by
  obtain ⟨r, result, t, hnotice, hintent, token, htoken, now, feedback, hres⟩ := h
  refine ⟨r, result, t, hnotice, hintent, ?_⟩
  simp only [classificationTokens, classificationChoices, List.map_cons, List.map_nil, List.mem_cons,
    Prod.mk.injEq, List.not_mem_nil, or_false] at htoken
  rcases htoken with ⟨-, rfl⟩ | ⟨-, rfl⟩ | ⟨-, rfl⟩ | ⟨-, rfl⟩ <;>
    rw [NotificationService.resolveAction_issue_ok hjson hres]

/-- **When an invocation confirms what was shown.** -/
theorem asShown_step_iff (hjson : cfg.notify.signer.codec.Lossless) {past : List (World × Call)}
    (h : NoticeInv cfg w past) (c : Call) : AsShown cfg past w c ↔ UpToDate cfg past w c := by
  constructor
  · rintro hshown a now env rfl hacc before e after rfl intent hfrom named hnamed
    obtain ⟨r, result, t, hnotice, rfl, hrid⟩ := hfrom.request hjson
    obtain ⟨r', hr', hintent⟩ := h.intent before e after rfl r result t hnotice
    have hsame := (hshown a now env rfl hacc e (by simp) result.intent hfrom).1 r' (hrid ▸ hr')
    rw [hrid] at hnamed
    rw [Option.mem_def.mp hnamed, Option.getD_some] at hintent
    rw [← hintent, hsame]
  · rintro hdate a now env rfl hacc e he intent hfrom
    obtain ⟨before, after, rfl⟩ := List.append_of_mem he
    obtain ⟨r, result, t, hnotice, rfl, hrid⟩ := hfrom.request hjson
    obtain ⟨r', hr', hintent⟩ := h.intent before e after rfl r result t hnotice
    have hsame : r'.intent = some result.intent := by
      rw [hintent]
      cases hlast : lastCorrection r.id after with
      | none => rfl
      | some named => exact hdate a now env rfl hacc before e after rfl _ hfrom named (hrid ▸ hlast)
    refine ⟨fun r₀ hr₀ => ?_, fun args hargs => ?_⟩
    · obtain rfl := Option.some.inj ((hrid ▸ hr').symm.trans hr₀)
      exact hsame
    · obtain ⟨a', now', env', r₀, hc, -, -, hr₀, rfl⟩ := askedFor_step hargs
      obtain ⟨rfl, -, -⟩ := Call.action.inj hc
      obtain rfl := Option.some.inj ((hrid ▸ hr').symm.trans hr₀)
      exact hsame

/-- **When the confirmations of a run confirm what was shown.** -/
theorem as_shown_iff (hjson : cfg.notify.signer.codec.Lossless) {cs : List Call}
    (hids : (ingestIds cs).Nodup) :
    (∀ pre c post, cs = pre ++ c :: post → AsShown cfg (history (step cfg) World.initial pre)
        (run (step cfg) World.initial pre) c) ↔
      ∀ pre c post, cs = pre ++ c :: post → UpToDate cfg (history (step cfg) World.initial pre)
        (run (step cfg) World.initial pre) c := by
  refine forall_congr' fun pre => forall_congr' fun c => forall_congr' fun post =>
    forall_congr' fun hcs => asShown_step_iff hjson (noticeInv_run ?_) c
  rw [hcs, ingestIds_append] at hids
  exact (List.nodup_append.mp hids).1

namespace Sample

/-- The action of the link that corrects `r1` to a quote, issued at `start`. -/
noncomputable def quoteLink : OwnerAction :=
  ⟨"r1", .classification, .correct, actionId ((config lossless false).notify.signer.issue "r1"
    .classification .correct start (some .quote) 0), some .quote, 0, none⟩

theorem linked_quoteLink : Linked (config lossless false)
    [(World.initial, announced .executionPlan)] quoteLink := by
  refine ⟨_, List.mem_singleton_self _, (config lossless false).notify.signer.issue "r1"
    .classification .correct start (some .quote) 0, by decide +kernel, start, none, ?_⟩
  exact NotificationService.resolveAction_issue lossless_lossless (by decide +kernel) none

theorem confirmedFrom_announced : ConfirmedFrom (config lossless false)
    (World.initial, announced .executionPlan) confirmLink .executionPlan := by
  have hnotice : ((performed (config lossless false)
      (World.initial, announced .executionPlan)).filterMap noticeOf).map
        (fun x => (x.1.id, x.2.1.intent, x.2.2)) = [("r1", .executionPlan, start)] := by
    decide +kernel
  obtain ⟨⟨r, result, t⟩, hlist, hx⟩ := List.map_eq_singleton_iff.mp hnotice
  simp only [Prod.mk.injEq] at hx
  obtain ⟨hid, hintent, rfl⟩ := hx
  refine ⟨r, result, start, by rw [hlist]; exact List.mem_singleton_self _, hintent, _,
    List.mem_cons_self, start, none, ?_⟩
  rw [hid]
  exact NotificationService.resolveAction_issue lossless_lossless (by decide +kernel) none

/-- The correction, and then a click on the first Confirm link. -/
noncomputable def superseded : List Call :=
  [announced .executionPlan, .action quoteLink (start + 1) (external ""),
    .action confirmLink (start + 2) (external planText)]

theorem superseded_fromLinks : FromLinks (config lossless false) superseded := by
  intro pre a now env post hcs
  rcases pre with - | ⟨c, - | ⟨c', - | ⟨c'', pre⟩⟩⟩
  · cases hcs
  · obtain ⟨rfl, hrest⟩ := List.cons.inj hcs
    obtain ⟨rfl, -, -⟩ := Call.action.inj (List.cons.inj hrest).1
    exact linked_quoteLink
  · obtain ⟨rfl, hrest⟩ := List.cons.inj hcs
    obtain ⟨rfl, hlast⟩ := List.cons.inj hrest
    obtain ⟨rfl, -, -⟩ := Call.action.inj (List.cons.inj hlast).1
    obtain ⟨e, he, hlink⟩ := linked_confirmLink
    obtain rfl := List.mem_singleton.mp he
    exact ⟨_, List.mem_cons_self, hlink⟩
  · have hlen := congrArg List.length hcs
    simp [superseded] at hlen

end Sample

open Sample in
/-- The Confirm link of the only notification confirms what it announced. -/
theorem as_shown_iff_announced :
    let cs := [announced .executionPlan, .action confirmLink (start + 1) (external planText)]
    (∀ pre c post, cs = pre ++ c :: post →
      UpToDate (config lossless false) (history (step (config lossless false)) World.initial pre)
        (run (step (config lossless false)) World.initial pre) c) ∧
    ∀ pre c post, cs = pre ++ c :: post →
      AsShown (config lossless false) (history (step (config lossless false)) World.initial pre)
        (run (step (config lossless false)) World.initial pre) c := by
  intro cs
  have hdate : ∀ pre c post, cs = pre ++ c :: post →
      UpToDate (config lossless false) (history (step (config lossless false)) World.initial pre)
        (run (step (config lossless false)) World.initial pre) c := by
    rintro pre c post hcs a now env rfl - before e after hpast intent - named hnamed
    -- no correction is accepted after the notification
    obtain rfl : after = [] := by
      rcases pre with - | ⟨c, - | ⟨c', pre⟩⟩
      · exact absurd (List.cons.inj hcs).1 (by simp [announced])
      · have hlen := congrArg List.length hpast
        simp only [history, List.length_append, List.length_cons, List.length_nil] at hlen
        exact List.length_eq_zero_iff.mp (by omega)
      · have hlen := congrArg List.length hcs
        simp only [cs, List.length_append, List.length_cons, List.length_nil] at hlen
        omega
    cases hnamed
  exact ⟨hdate, (as_shown_iff lossless_lossless (by decide +kernel)).mpr hdate⟩

open Sample in
/-- A click on the Confirm link of a notification that a correction superseded. -/
theorem superseded_confirmation :
    ¬ ∀ (cfg : Config) (cs : List Call), cfg.notify.signer.codec.Lossless → (ingestIds cs).Nodup →
      (cs.Pairwise fun c c' => c.time < c'.time) → FromLinks cfg cs →
        ∀ pre c post, cs = pre ++ c :: post → AsShown cfg (history (step cfg) World.initial pre)
          (run (step cfg) World.initial pre) c := by
  intro h
  have hshown := h (config lossless false) superseded lossless_lossless (by decide +kernel)
    (by decide +kernel) superseded_fromLinks (superseded.take 2)
    (.action confirmLink (start + 2) (external planText)) [] rfl
  -- one evaluation of the run
  obtain ⟨hquote, hacc⟩ : ((run (step (config lossless false)) World.initial
      (superseded.take 2)).repo.requests "r1").map (·.intent) = some (some .quote) ∧
      Accepted (run (step (config lossless false)) World.initial (superseded.take 2))
        confirmLink := by decide +kernel
  obtain ⟨r, hr, hintent⟩ := Option.map_eq_some_iff.mp hquote
  have hplan := (hshown _ _ _ rfl hacc _ List.mem_cons_self _ confirmedFrom_announced).1 r hr
  rw [hplan] at hintent
  exact absurd hintent (by decide)

end WappPlanner.Orchestrator
