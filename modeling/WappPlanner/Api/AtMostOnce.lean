import WappPlanner.Api.Refinement

/-! # One message, one place

Across webhooks, ticks and clicks, and whatever raises, a message is at most in one place: in one open
bucket or in one request, and there once. What a request was handed stays its messages
(`never_twice`). -/

namespace WappPlanner.Api

open WappPlanner.Bootstrap WappPlanner.Domain.Models WappPlanner.Hitl.Service WappPlanner.Ingestion
open WappPlanner.Lib WappPlanner.Lib.Programs WappPlanner.Lib.Runs WappPlanner.Orchestrator
open WappPlanner.Py.Text WappPlanner.Py.Values

/-! ### The messages of requests -/

section messages

variable {cfg : Config} {w : World}

theorem follow_messages {env : External} {a : OwnerAction} {r : Request} {now : Instant}
    {o : Outcome Op World Errors.Exn Request} (ho : FollowOutcome cfg env a r now w o) :
    o.state.repo.messages = w.repo.messages := by
  cases ho with
  | settled | unnamed | corrected => rfl
  | pipeline hd lookups hlookups o ho =>
    cases ho with
    | failed | made => rfl
    | stopped exc w' trace hgen hexc hrepo => exact congrArg (·.messages) hrepo

theorem action_messages (a : OwnerAction) (now : Instant) (env : External) :
    (Orchestrator.step cfg w (.action a now env)).repo.messages = w.repo.messages := by
  have ho := action_outcome cfg w a now env
  unfold Orchestrator.step
  generalize outcome cfg w (.action a now env) = o at ho ⊢
  cases ho with
  | unknown | duplicate | refused => rfl
  | accepted r hr hfresh hgate o ho =>
    change o.state.repo.messages = w.repo.messages
    rw [follow_messages ho]
    rfl

theorem inbound_messages {ctx : AppContext} {messageId mediaId : String}
    {source : MediaSource} :
    (happens ctx w (.inbound messageId mediaId source)).repo.messages = w.repo.messages :=
  congrArg (·.messages) (inbound_world _ _ _ w messageId mediaId source).1

end messages

variable {ctx : AppContext}

/-- **The messages of a request** are those of the batch that was ingested under its id. -/
theorem messages_events (es : List Event) (hnodup : (ingested es).Nodup) :
    (∀ rid, (run (happens ctx) World.initial es).repo.messages rid ≠ [] →
      ∃ b ∈ es.filterMap Event.batch?, b.aggregated.requestId = rid) ∧
    ∀ b ∈ es.filterMap Event.batch?,
      (run (happens ctx) World.initial es).repo.messages b.aggregated.requestId =
        b.aggregated.messages := by
  induction es using List.reverseRecOn with
  | nil => exact ⟨fun rid h => absurd rfl h, fun b hb => by cases hb⟩
  | append_singleton es e ih =>
    have hids : ingested (es ++ [e]) = ingested es ++ ingested [e] := by
      simp only [ingested_eq, List.filterMap_append, List.map_append]
    rw [hids] at hnodup
    obtain ⟨hfrom, hof⟩ := ih hnodup.of_append_left
    rw [run_append, List.filterMap_append]
    change (∀ rid, (happens ctx (run (happens ctx) World.initial es) e).repo.messages rid ≠ [] → _) ∧
      ∀ b ∈ _, (happens ctx (run (happens ctx) World.initial es) e).repo.messages _ = _
    generalize run (happens ctx) World.initial es = w at hfrom hof ⊢
    cases e with
    | inbound messageId mediaId source =>
      have hnone : [Event.inbound messageId mediaId source].filterMap Event.batch? = [] := rfl
      rw [inbound_messages, hnone, List.append_nil]
      exact ⟨hfrom, hof⟩
    | call c =>
      cases c with
      | action a now env =>
        have hkeep : (happens ctx w (.call (.action a now env))).repo.messages = w.repo.messages :=
          action_messages a now env
        have hnone : [Event.call (.action a now env)].filterMap Event.batch? = [] := rfl
        rw [hkeep, hnone, List.append_nil]
        exact ⟨hfrom, hof⟩
      | ingest b env =>
        have hset : (happens ctx w (.call (.ingest b env))).repo.messages =
            Function.update w.repo.messages b.aggregated.requestId b.aggregated.messages :=
          ingest_messages ctx.orchestrator w b env
        rw [hset]
        refine ⟨fun rid h => ?_, fun b' hb' => ?_⟩
        · by_cases hrid : rid = b.aggregated.requestId
          · exact ⟨b, List.mem_append_right _ List.mem_cons_self, hrid.symm⟩
          · rw [Function.update_of_ne hrid] at h
            obtain ⟨b', hb', hb'id⟩ := hfrom rid h
            exact ⟨b', List.mem_append_left _ hb', hb'id⟩
        · rcases List.mem_append.mp hb' with hb' | hb'
          · have hne : b'.aggregated.requestId ≠ b.aggregated.requestId := by
              intro hsame
              refine List.disjoint_of_nodup_append hnodup (a := b'.aggregated.requestId) ?_ ?_
              · rw [ingested_eq]
                exact List.mem_map_of_mem hb'
              · rw [hsame]
                exact List.mem_cons_self
            rw [Function.update_of_ne hne]
            exact hof b' hb'
          · obtain rfl : b' = b := by simpa [Event.batch?] using hb'
            exact Function.update_self ..

/-- Every message of a request was handed over with it. -/
def Backed (s : State) : Prop :=
  ∀ rid, s.world.repo.messages rid ≠ [] → ∃ b ∈ s.handed,
    b.aggregated.requestId = rid ∧ s.world.repo.messages rid = b.aggregated.messages

/-- **The messages of the requests of a run** are those that were handed over. -/
theorem messages_run (hctx : Wired ctx) (hids : Function.Injective ctx.ingestion.windows.idFactory)
    (cs : List Input) : Backed (run (step ctx) State.initial cs) ∧
      ∀ b ∈ (run (step ctx) State.initial cs).handed,
        (run (step ctx) State.initial cs).world.repo.messages b.aggregated.requestId =
          b.aggregated.messages := by
  obtain ⟨es, hworld, hnodup, hbatches, -⟩ := initial_events hctx hids cs
  have hmessages := @messages_events ctx es hnodup
  rw [hbatches, ← hworld] at hmessages
  obtain ⟨hfrom, hof⟩ := hmessages
  refine ⟨fun rid hne => ?_, hof⟩
  obtain ⟨b, hb, hrid⟩ := hfrom rid hne
  exact ⟨b, hb, hrid, hrid ▸ hof b hb⟩

/-! ### Places -/

/-- Where the ids of a place are boxed. -/
def Boxes (s : State) (b : String × List String) : Place → Prop
  | .bucket clientId =>
    ∃ bucket, s.aggregator.openBuckets.get clientId = some bucket ∧ b = boxOf bucket.closed
  | .request requestId => b.1 = requestId ∧ ∃ batch ∈ s.handed, b = boxOf batch.aggregated

section places

variable {s : State}

theorem box_of_held (hs : Backed s) {p : Place} {id : String} (hid : id ∈ s.held p) :
    ∃ b ∈ s.boxes [], b.2 = s.held p ∧ Boxes s b p := by
  cases p with
  | bucket clientId =>
    cases hb : s.aggregator.openBuckets.get clientId with
    | none =>
      rw [State.held, hb] at hid
      cases hid
    | some bucket =>
      have hheld : (boxOf bucket.closed).2 = s.held (.bucket clientId) := by
        rw [State.held, hb]
        rfl
      refine ⟨boxOf bucket.closed, ?_, hheld, bucket, hb, rfl⟩
      refine List.mem_append_right _ (List.mem_append_right _ ?_)
      exact List.mem_map.mpr ⟨_, Dict.get_eq_some.mp hb, rfl⟩
  | request requestId =>
    have hne : s.world.repo.messages requestId ≠ [] := by
      intro hnil
      rw [State.held, hnil] at hid
      cases hid
    obtain ⟨batch, hbatch, hrid, hmessages⟩ := hs requestId hne
    refine ⟨boxOf batch.aggregated, ?_, ?_, hrid, batch, hbatch, rfl⟩
    · exact List.mem_append_left _ (List.mem_map.mpr ⟨batch, hbatch, rfl⟩)
    · rw [State.held, hmessages]
      rfl

theorem place_of_box {service : IngestionService} (hs : Taken service [] s) {b : String × List String}
    {p q : Place} (hp : Boxes s b p) (hq : Boxes s b q) : p = q := by
  have hnames := hs.apart.names
  unfold State.boxes openBoxes at hnames
  rw [List.map_append, List.map_nil, List.nil_append, List.map_map, List.map_map] at hnames
  have hacross : ∀ bucket clientId, s.aggregator.openBuckets.get clientId = some bucket →
      ∀ batch ∈ s.handed, boxOf bucket.closed ≠ boxOf batch.aggregated := by
    intro bucket clientId hb batch hbatch hsame
    have hopen : (boxOf bucket.closed).1 ∈ s.aggregator.openBuckets.entries.map
        (Prod.fst ∘ fun e => boxOf e.2.closed) :=
      List.mem_map.mpr ⟨_, Dict.get_eq_some.mp hb, rfl⟩
    refine List.disjoint_of_nodup_append hnames ?_ hopen
    rw [hsame]
    exact List.mem_map.mpr ⟨batch, hbatch, rfl⟩
  cases p with
  | bucket c =>
    obtain ⟨bucket, hb, rfl⟩ := hp
    cases q with
    | bucket c' =>
      obtain ⟨bucket', hb', hsame⟩ := hq
      have hentry := List.inj_on_of_nodup_map hnames.of_append_right (Dict.get_eq_some.mp hb)
        (Dict.get_eq_some.mp hb') (congrArg Prod.fst hsame)
      rw [(Prod.mk.inj hentry).1]
    | request rid =>
      obtain ⟨-, batch, hbatch, hsame⟩ := hq
      exact absurd hsame (hacross bucket c hb batch hbatch)
  | request rid =>
    obtain ⟨hrid, batch, hbatch, hbox⟩ := hp
    cases q with
    | bucket c =>
      obtain ⟨bucket, hb, hsame⟩ := hq
      exact absurd (hsame.symm.trans hbox) (hacross bucket c hb batch hbatch)
    | request rid' => rw [← hrid, hq.1]

end places

/-- **No message is taken up twice**, in any run, whatever raises. No request id is handed over twice,
a place holds no id twice, no two places hold the same id, only claimed ids are held, and what was
handed over stays as it was. -/
theorem never_twice (settings : Settings) (secrets : Secrets) (platform : Platform)
    (clients : List Client) (idFactory : ℕ → String) (hids : Function.Injective idFactory)
    (cs : List Input) :
    let s := run (step (buildApp settings secrets platform clients idFactory)) State.initial cs
    (s.handed.map (·.aggregated.requestId)).Nodup ∧ (∀ p, (s.held p).Nodup) ∧
      (∀ p q id, id ∈ s.held p → id ∈ s.held q → p = q) ∧
      (∀ p, ∀ id ∈ s.held p, id ∈ s.seen) ∧
      ∀ b ∈ s.handed, s.world.repo.messages b.aggregated.requestId = b.aggregated.messages := by
  intro s
  have hctx := wired_buildApp settings secrets platform clients idFactory
  have htaken : Taken (buildApp settings secrets platform clients idFactory).ingestion [] s :=
    taken_run hids cs
  obtain ⟨hbacked, hof⟩ := messages_run hctx hids cs
  refine ⟨nodup_handed hids cs, fun p => ?_, fun p q id hp hq => ?_, fun p id hid => ?_, hof⟩
  · by_cases hempty : s.held p = []
    · rw [hempty]
      exact List.nodup_nil
    · obtain ⟨id, hid⟩ := List.exists_mem_of_ne_nil _ hempty
      obtain ⟨b, hb, hheld, -⟩ := box_of_held hbacked hid
      rw [← hheld]
      exact (List.nodup_flatMap.mp htaken.apart.contents).1 b hb
  · obtain ⟨b, hb, hheld, hbox⟩ := box_of_held hbacked hp
    obtain ⟨b', hb', hheld', hbox'⟩ := box_of_held hbacked hq
    have hsame : b = b' := htaken.apart.eq_of_mem hb hb' (hheld ▸ hp) (hheld' ▸ hq)
    exact place_of_box htaken hbox (hsame ▸ hbox')
  · obtain ⟨b, hb, hheld, -⟩ := box_of_held hbacked hid
    exact htaken.claimed b hb id (hheld ▸ hid)

open Sample in
theorem never_twice_morning :
    let s := run (step (buildApp Bootstrap.Sample.settings secrets asking [] idFactory))
      State.initial morning
    (s.handed.map (·.aggregated.requestId)).Nodup ∧ (∀ p, (s.held p).Nodup) ∧
      (∀ p q id, id ∈ s.held p → id ∈ s.held q → p = q) ∧
      (∀ p, ∀ id ∈ s.held p, id ∈ s.seen) ∧
      ∀ b ∈ s.handed, s.world.repo.messages b.aggregated.requestId = b.aggregated.messages :=
  never_twice Bootstrap.Sample.settings secrets asking [] idFactory injective_idFactory morning

end WappPlanner.Api
