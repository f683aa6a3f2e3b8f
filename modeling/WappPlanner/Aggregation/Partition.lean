import Mathlib.Algebra.Order.Group.Int
import WappPlanner.Aggregation.Aggregator
import WappPlanner.Lib.Greedy

/-! # Aggregation divides greedily

A list of events is played on a fresh aggregator: messages, timer ticks and restarts, closed by a
shutdown. Ticks and restarts change nothing about what a client's requests are
(`requestsOf_eq_adds`): a tick only emits a request earlier, one that no later message could have
joined, and a restart restores the state it exported. Without them, the requests of a client are the
greedy division of its messages by the two windows (`greedy_partition`). -/

namespace WappPlanner.Aggregation

open WappPlanner.Domain.Models WappPlanner.Lib WappPlanner.Py.Text

/-- What happens to an aggregator: a message, a timer tick, or a restart that moves its state into a
fresh one. -/
inductive Event
  | add (clientId : String) (message : Message) (now : Instant)
  | flushDue (now : Instant)
  | restart

namespace Event

def time : Event → Option Instant
  | add _ _ now | flushDue now => some now
  | restart => none

def isAdd : Event → Bool
  | add _ _ _ => true
  | flushDue _ | restart => false

/-- The message an event brings from a client, with its time. -/
def arrival (clientId : String) : Event → Option (Message × Instant)
  | add clientId' message now => if clientId' = clientId then some (message, now) else none
  | flushDue _ | restart => none

end Event

/-- The times of a list of events. -/
def times (es : List Event) : List Instant := es.filterMap Event.time

/-- The same messages without ticks and restarts. -/
def adds (es : List Event) : List Event := es.filter Event.isAdd

/-- The messages of a client with their times. -/
def arrivals (clientId : String) (es : List Event) : List (Message × Instant) :=
  es.filterMap (Event.arrival clientId)

variable (cfg : AggregatorConfig)

namespace Aggregator

/-- The requests an event emits. The aggregator after a restart goes on with the same supply of
ids. -/
def handle (agg : Aggregator) : Event → List AggregatedRequest × Aggregator
  | .add clientId message now =>
    let (displaced, agg) := agg.add cfg clientId message now
    (displaced.toList, agg)
  | .flushDue now => agg.flushDue cfg now
  | .restart => ([], (fresh agg.issued).loadState agg.exportState)

/-- The requests a list of events emits, closed by a shutdown. -/
def emitted (agg : Aggregator) : List Event → List AggregatedRequest
  | [] => agg.flushAll.1
  | e :: es => (agg.handle cfg e).1 ++ emitted (agg.handle cfg e).2 es

end Aggregator

/-- The requests among `rs` that are a client's. -/
def ofClient (clientId : String) (rs : List AggregatedRequest) : List AggregatedRequest :=
  rs.filter (·.clientId = clientId)

/-- The requests of a client over a list of events, in the order in which they are emitted. -/
def requestsOf (clientId : String) (es : List Event) : List AggregatedRequest :=
  ofClient clientId ((Aggregator.fresh 0).emitted cfg es)

/-! ### Buckets -/

variable {cfg}

theorem ofClient_append {c : String} {rs rs' : List AggregatedRequest} :
    ofClient c (rs ++ rs') = ofClient c rs ++ ofClient c rs' := List.filter_append ..

/-- **A bucket that is due stays due.** -/
theorem AggregatorConfig.active_mono {bucket : OpenBucket} {t t' : Instant} (h : t ≤ t')
    (hdue : cfg.active bucket t = false) : cfg.active bucket t' = false := by
  unfold AggregatorConfig.active at hdue ⊢
  simp only [Bool.and_eq_false_iff, decide_eq_false_iff_not, not_lt] at hdue ⊢
  rcases hdue with hdue | hdue
  · exact .inl (hdue.trans (sub_le_sub_right h _))
  · exact .inr (hdue.trans (sub_le_sub_right h _))

namespace Aggregator

variable {agg : Aggregator} {c : String} {m : Message} {t : Instant}

/-- Every bucket is kept under its client. -/
def Keyed (agg : Aggregator) : Prop := ∀ e ∈ agg.openBuckets.entries, e.2.clientId = e.1

/-- The bucket a client's message opens. -/
def opening (cfg : AggregatorConfig) (agg : Aggregator) (clientId : String) (message : Message)
    (now : Instant) : OpenBucket :=
  (OpenBucket.append ⟨cfg.idFactory agg.issued, clientId, now, now, []⟩ message now)

theorem Keyed.clientId {bucket : OpenBucket} (h : agg.Keyed)
    (hb : agg.openBuckets.get c = some bucket) : bucket.clientId = c :=
  h _ (Dict.get_eq_some.mp hb)

section add

theorem add_active {bucket : OpenBucket} (hb : agg.openBuckets.get c = some bucket)
    (hactive : cfg.active bucket t = true) :
    agg.add cfg c m t =
      (none, ⟨agg.openBuckets.set c (bucket.append m t), agg.issued⟩) := by
  unfold add
  rw [hb]
  simp [hactive]

theorem add_due {bucket : OpenBucket} (hb : agg.openBuckets.get c = some bucket)
    (hdue : cfg.active bucket t = false) :
    agg.add cfg c m t = (some bucket.closed,
      ⟨(agg.openBuckets.erase c).set c (agg.opening cfg c m t), agg.issued + 1⟩) := by
  unfold add
  rw [hb]
  simp [hdue, startBucket, dropBucket, opening]

theorem add_none (hb : agg.openBuckets.get c = none) :
    agg.add cfg c m t =
      (none, ⟨agg.openBuckets.set c (agg.opening cfg c m t), agg.issued + 1⟩) := by
  unfold add
  rw [hb]
  rfl

end add

/-- The bucket a client's message ends up in. -/
def joined (cfg : AggregatorConfig) (agg : Aggregator) (clientId : String) (message : Message)
    (now : Instant) : OpenBucket :=
  match agg.openBuckets.get clientId with
  | none => agg.opening cfg clientId message now
  | some bucket =>
    if cfg.active bucket now then bucket.append message now
    else agg.opening cfg clientId message now

/-- The client's bucket, if it is due. -/
def dueOf (cfg : AggregatorConfig) (agg : Aggregator) (clientId : String) (now : Instant) :
    Option OpenBucket :=
  (agg.openBuckets.get clientId).filter fun bucket => !cfg.active bucket now

theorem get_add (c' : String) :
    (agg.add cfg c m t).2.openBuckets.get c' =
      if c' = c then some (agg.joined cfg c m t) else agg.openBuckets.get c' := by
  unfold joined
  cases hb : agg.openBuckets.get c with
  | none => rw [add_none hb, Dict.get_set]
  | some bucket =>
    cases hactive : cfg.active bucket t with
    | true => simp [add_active hb hactive, Dict.get_set, hactive]
    | false =>
      rw [add_due hb hactive, Dict.get_set, Dict.get_erase]
      by_cases hc : c' = c <;> simp [hc, hactive]

theorem add_emits : (agg.add cfg c m t).1 = (agg.dueOf cfg c t).map (·.closed) := by
  unfold dueOf
  cases hb : agg.openBuckets.get c with
  | none => rw [add_none hb, Option.filter_none, Option.map_none]
  | some bucket =>
    cases hactive : cfg.active bucket t with
    | true => simp [add_active hb hactive, Option.filter, hactive]
    | false => simp [add_due hb hactive, Option.filter, hactive]

theorem mem_joined {m' : Message} (h : m' ∈ (agg.joined cfg c m t).messages) :
    (∃ bucket, agg.openBuckets.get c = some bucket ∧ m' ∈ bucket.messages) ∨
      ∃ order, m' = { m with order := order } := by
  have hopening : ∀ m' ∈ (agg.opening cfg c m t).messages, ∃ order, m' = { m with order := order } :=
    fun m' hm' => ⟨_, List.mem_singleton.mp hm'⟩
  unfold joined at h
  split at h
  · exact .inr (hopening m' h)
  · rename_i bucket hb
    split_ifs at h
    · rcases List.mem_append.mp h with h | h
      · exact .inl ⟨bucket, hb, h⟩
      · exact .inr ⟨_, List.mem_singleton.mp h⟩
    · exact .inr (hopening m' h)

theorem issued_add : (agg.add cfg c m t).2.issued =
    if (agg.openBuckets.get c).any (cfg.active · t) then agg.issued else agg.issued + 1 := by
  cases hb : agg.openBuckets.get c with
  | none => simp [add_none hb]
  | some bucket =>
    cases hactive : cfg.active bucket t with
    | true => simp [add_active hb hactive, hactive]
    | false => simp [add_due hb hactive, hactive]

theorem Keyed.add (h : agg.Keyed) : (agg.add cfg c m t).2.Keyed := by
  rintro ⟨c', bucket⟩ hmem
  rw [← Dict.get_eq_some, get_add] at hmem
  split_ifs at hmem with hc
  · subst hc
    obtain rfl := Option.some.inj hmem
    unfold joined
    split
    · rfl
    · rename_i bucket hb
      have hclient : bucket.clientId = c' := h.clientId hb
      split
      · exact hclient
      · rfl
  · exact h.clientId hmem

/-! ### Ticks, restarts and shutdowns -/

theorem openBuckets_foldl_drop : ∀ {l : List (String × OpenBucket)} {agg : Aggregator},
    (l.foldl (fun agg e => agg.dropBucket e.1) agg).openBuckets =
      l.foldl (fun d e => d.erase e.1) agg.openBuckets
  | [], _ => rfl
  | e :: l, agg => by
    rw [List.foldl_cons, openBuckets_foldl_drop]
    rfl

theorem issued_foldl_drop : ∀ {l : List (String × OpenBucket)} {agg : Aggregator},
    (l.foldl (fun agg e => agg.dropBucket e.1) agg).issued = agg.issued
  | [], _ => rfl
  | e :: l, agg => by
    rw [List.foldl_cons, issued_foldl_drop]
    rfl

theorem get_flushDue (c : String) :
    (agg.flushDue cfg t).2.openBuckets.get c =
      (agg.openBuckets.get c).filter (cfg.active · t) := by
  have hmem : c ∈ (agg.due cfg t).map Prod.fst ↔
      ∃ bucket, agg.openBuckets.get c = some bucket ∧ cfg.active bucket t = false := by
    simp only [due, List.mem_map, List.mem_filter, Prod.exists, Bool.not_eq_true',
      Dict.get_eq_some]
    constructor
    · rintro ⟨c', bucket, hrest, rfl⟩
      exact ⟨bucket, hrest⟩
    · rintro ⟨bucket, hrest⟩
      exact ⟨c, bucket, hrest, rfl⟩
  unfold flushDue
  rw [openBuckets_foldl_drop, Dict.get_foldl_erase]
  simp only [hmem]
  cases hb : agg.openBuckets.get c with
  | none => simp
  | some bucket => cases hactive : cfg.active bucket t <;> simp [hactive, Option.filter]

theorem open_of_flushDue {bucket : OpenBucket}
    (h : (agg.flushDue cfg t).2.openBuckets.get c = some bucket) :
    agg.openBuckets.get c = some bucket := by
  rw [get_flushDue] at h
  exact (Option.filter_eq_some_iff.mp h).1

theorem open_of_mem_flushDue {r : AggregatedRequest} (h : r ∈ (agg.flushDue cfg t).1) :
    ∃ c bucket, agg.openBuckets.get c = some bucket ∧ r = bucket.closed := by
  obtain ⟨⟨c, bucket⟩, hmem, rfl⟩ := List.mem_map.mp h
  exact ⟨c, bucket, Dict.get_eq_some.mpr (List.mem_filter.mp hmem).1, rfl⟩

theorem flushAll_emits (h : agg.Keyed) (c : String) :
    ofClient c agg.flushAll.1 = ((agg.openBuckets.get c).map (·.closed)).toList := by
  have hkey : agg.openBuckets.entries.filter (fun e => e.2.clientId = c) =
      agg.openBuckets.entries.filter (fun e => e.1 = c) := by
    refine List.filter_congr fun e he => ?_
    rw [h e he]
  rw [flushAll, ofClient, List.filter_map]
  change (agg.openBuckets.entries.filter (fun e => e.2.clientId = c)).map _ = _
  rw [hkey, Dict.filter_key]
  cases agg.openBuckets.get c <;> rfl

theorem flushDue_emits (h : agg.Keyed) (c : String) :
    ofClient c (agg.flushDue cfg t).1 = ((agg.dueOf cfg c t).map (·.closed)).toList := by
  have hkey : (agg.due cfg t).filter (fun e => e.2.clientId = c) =
      (agg.openBuckets.entries.filter (fun e => e.1 = c)).filter
        fun e => !cfg.active e.2 t := by
    rw [due, List.filter_comm]
    refine congrArg _ (List.filter_congr fun e he => ?_)
    rw [h e he]
  rw [flushDue, ofClient, List.filter_map]
  change ((agg.due cfg t).filter (fun e => e.2.clientId = c)).map _ = _
  rw [hkey, Dict.filter_key, dueOf]
  cases hb : agg.openBuckets.get c with
  | none => rfl
  | some bucket => cases hactive : cfg.active bucket t <;> simp [hactive, Option.filter]

theorem Keyed.flushDue (h : agg.Keyed) : (agg.flushDue cfg t).2.Keyed := by
  rintro ⟨c, bucket⟩ hmem
  rw [← Dict.get_eq_some] at hmem
  exact h.clientId (open_of_flushDue hmem)

/-- **A restart restores the state.** -/
theorem loadState_exportState (h : agg.Keyed) :
    (fresh agg.issued).loadState agg.exportState = agg := by
  have hentries : (agg.exportState.map fun bucket => (bucket.clientId, bucket)) =
      agg.openBuckets.entries := by
    unfold exportState Dict.values
    rw [List.map_map]
    refine (List.map_congr_left fun e he => ?_).trans (List.map_id _)
    exact Prod.ext (h e he) rfl
  have hkeys : (agg.exportState.map (·.clientId)) = agg.openBuckets.keys := by
    rw [Dict.keys, ← hentries, List.map_map]
    rfl
  have hopen : agg.exportState.foldl (fun d bucket => d.set bucket.clientId bucket) Dict.empty =
      agg.openBuckets := by
    apply Dict.ext
    rw [Dict.entries_foldl_set, hentries]
    · rfl
    · rw [hkeys]
      exact agg.openBuckets.nodup
  rw [loadState, hopen]
  rfl

end Aggregator

/-! ### Ticks and restarts do not show -/

/-- The aggregator `agg` saw the ticks that `agg₀` did not: a client's buckets agree, or the one in
`agg₀` is due at all times to come and was emitted by `agg`. -/
structure Ahead (cfg : AggregatorConfig) (coming : List Instant) (agg agg₀ : Aggregator) : Prop where
  keyed : agg.Keyed
  keyed₀ : agg₀.Keyed
  issued : agg.issued = agg₀.issued
  agree : ∀ c, agg.openBuckets.get c = agg₀.openBuckets.get c ∨
    agg.openBuckets.get c = none ∧ ∃ bucket, agg₀.openBuckets.get c = some bucket ∧
      ∀ t ∈ coming, cfg.active bucket t = false

/-- The request of a client that `agg` has emitted and `agg₀` has not. -/
def lead (agg agg₀ : Aggregator) (c : String) : List AggregatedRequest :=
  match agg.openBuckets.get c with
  | none => ((agg₀.openBuckets.get c).map (·.closed)).toList
  | some _ => []

namespace Ahead

variable {coming : List Instant} {agg agg₀ : Aggregator} {c : String} {m : Message} {t : Instant}

theorem lead_of_eq (h : agg.openBuckets.get c = agg₀.openBuckets.get c) : lead agg agg₀ c = [] := by
  unfold lead
  rw [h]
  cases agg₀.openBuckets.get c <;> rfl

theorem joined_eq (h : Ahead cfg (t :: coming) agg agg₀) (c : String) (m : Message) :
    agg.joined cfg c m t = agg₀.joined cfg c m t := by
  have hopening : agg.opening cfg c m t = agg₀.opening cfg c m t := by
    unfold Aggregator.opening
    rw [h.issued]
  unfold Aggregator.joined
  rcases h.agree c with heq | ⟨hnone, bucket, hb, hdue⟩
  · rw [heq, hopening]
  · rw [hnone, hb]
    simp [hdue t List.mem_cons_self, hopening]

theorem add (h : Ahead cfg (t :: coming) agg agg₀) (c : String) (m : Message) :
    Ahead cfg coming (agg.add cfg c m t).2 (agg₀.add cfg c m t).2 := by
  refine ⟨h.keyed.add, h.keyed₀.add, ?_, fun c' => ?_⟩
  · rw [Aggregator.issued_add, Aggregator.issued_add, h.issued]
    rcases h.agree c with heq | ⟨hnone, bucket, hb, hdue⟩
    · rw [heq]
    · rw [hnone, hb]
      simp [hdue t List.mem_cons_self]
  · rw [Aggregator.get_add, Aggregator.get_add, h.joined_eq]
    by_cases hc : c' = c
    · rw [if_pos hc, if_pos hc]
      exact .inl rfl
    · rw [if_neg hc, if_neg hc]
      rcases h.agree c' with heq | ⟨hnone, bucket, hb, hdue⟩
      · exact .inl heq
      · exact .inr ⟨hnone, bucket, hb, fun t' ht' => hdue t' (List.mem_cons_of_mem _ ht')⟩

theorem clientId_dueOf (h : agg.Keyed) {bucket : OpenBucket}
    (hb : agg.dueOf cfg c t = some bucket) : bucket.clientId = c :=
  h.clientId (Option.filter_eq_some_iff.mp hb).1

theorem add_emits (h : Ahead cfg (t :: coming) agg agg₀) (c' : String) :
    ofClient c' (agg₀.add cfg c m t).1.toList ++
        lead (agg.add cfg c m t).2 (agg₀.add cfg c m t).2 c' =
      lead agg agg₀ c' ++ ofClient c' (agg.add cfg c m t).1.toList := by
  by_cases hc : c' = c
  · subst hc
    have hafter : (agg.add cfg c' m t).2.openBuckets.get c' =
        (agg₀.add cfg c' m t).2.openBuckets.get c' := by
      rw [Aggregator.get_add, Aggregator.get_add, h.joined_eq, if_pos rfl, if_pos rfl]
    rw [lead_of_eq hafter, List.append_nil, Aggregator.add_emits, Aggregator.add_emits]
    rcases h.agree c' with heq | ⟨hnone, bucket, hb, hdue⟩
    · rw [lead_of_eq heq, Aggregator.dueOf, Aggregator.dueOf, heq, List.nil_append]
    · have hclient : bucket.clientId = c' := h.keyed₀.clientId hb
      have hemit : agg₀.dueOf cfg c' t = some bucket := by
        simp [Aggregator.dueOf, hb, hdue t List.mem_cons_self, Option.filter]
      rw [hemit, Aggregator.dueOf, lead, hnone, hb]
      simp [ofClient, OpenBucket.closed, hclient]
  · have hnone : ∀ {agg : Aggregator}, agg.Keyed → ofClient c' (agg.add cfg c m t).1.toList = [] := by
      intro agg hk
      rw [Aggregator.add_emits]
      cases hdue : agg.dueOf cfg c t with
      | none => rfl
      | some bucket =>
        have hclient : bucket.clientId ≠ c' := by
          rw [clientId_dueOf hk hdue]
          exact Ne.symm hc
        simp [ofClient, OpenBucket.closed, hclient]
    have hlead : lead (agg.add cfg c m t).2 (agg₀.add cfg c m t).2 c' = lead agg agg₀ c' := by
      unfold lead
      rw [Aggregator.get_add, Aggregator.get_add, if_neg hc, if_neg hc]
    rw [hnone h.keyed, hnone h.keyed₀, hlead, List.append_nil, List.nil_append]

theorem flushDue (h : Ahead cfg (t :: coming) agg agg₀) (hmono : ∀ t' ∈ coming, t ≤ t') :
    Ahead cfg coming (agg.flushDue cfg t).2 agg₀ := by
  refine ⟨h.keyed.flushDue, h.keyed₀, ?_, fun c => ?_⟩
  · rw [← h.issued]
    exact Aggregator.issued_foldl_drop
  · rw [Aggregator.get_flushDue]
    rcases h.agree c with heq | ⟨hnone, bucket, hb, hdue⟩
    · cases hb : agg.openBuckets.get c with
      | none =>
        rw [Option.filter_none, ← heq, hb]
        exact .inl rfl
      | some bucket =>
        cases hactive : cfg.active bucket t with
        | true =>
          rw [← heq, hb]
          exact .inl (by simp [Option.filter, hactive])
        | false =>
          refine .inr ⟨by simp [Option.filter, hactive], bucket, by rw [← heq, hb], ?_⟩
          exact fun t' ht' => AggregatorConfig.active_mono (hmono t' ht') hactive
    · rw [hnone, Option.filter_none]
      exact .inr ⟨rfl, bucket, hb, fun t' ht' => hdue t' (List.mem_cons_of_mem _ ht')⟩

theorem flushDue_emits (h : Ahead cfg (t :: coming) agg agg₀) (c : String) :
    lead (agg.flushDue cfg t).2 agg₀ c =
      lead agg agg₀ c ++ ofClient c (agg.flushDue cfg t).1 := by
  rw [Aggregator.flushDue_emits h.keyed, Aggregator.dueOf, lead, Aggregator.get_flushDue, lead]
  rcases h.agree c with heq | ⟨hnone, bucket, hb, hdue⟩
  · cases hb : agg.openBuckets.get c with
    | none => simp [Option.filter]
    | some bucket =>
      rw [← heq, hb]
      cases hactive : cfg.active bucket t <;> simp [Option.filter, hactive]
  · simp [hnone, Option.filter]

end Ahead

/-- What `agg` still emits is what `agg₀` still emits without the ticks, less the lead. -/
theorem emitted_ahead (c : String) : ∀ {es : List Event} {agg agg₀ : Aggregator},
    Ahead cfg (times es) agg agg₀ → (times es).Pairwise (· ≤ ·) →
      ofClient c (agg₀.emitted cfg (adds es)) =
        lead agg agg₀ c ++ ofClient c (agg.emitted cfg es)
  | [], agg, agg₀, h, _ => by
    change ofClient c agg₀.flushAll.1 = lead agg agg₀ c ++ ofClient c agg.flushAll.1
    rw [Aggregator.flushAll_emits h.keyed₀, Aggregator.flushAll_emits h.keyed]
    rcases h.agree c with heq | ⟨hnone, bucket, hb, hdue⟩
    · rw [Ahead.lead_of_eq heq, heq, List.nil_append]
    · rw [lead, hnone, hb]
      rfl
  | .add c' m t :: es, agg, agg₀, h, hmono => by
    have hnext : Ahead cfg (times es) (agg.add cfg c' m t).2 (agg₀.add cfg c' m t).2 := h.add c' m
    have ih := emitted_ahead c hnext (List.pairwise_cons.mp hmono).2
    change ofClient c ((agg₀.add cfg c' m t).1.toList ++
        (agg₀.add cfg c' m t).2.emitted cfg (adds es)) =
      lead agg agg₀ c ++ ofClient c ((agg.add cfg c' m t).1.toList ++
        (agg.add cfg c' m t).2.emitted cfg es)
    rw [ofClient_append, ih, ofClient_append, ← List.append_assoc, h.add_emits, List.append_assoc]
  | .flushDue t :: es, agg, agg₀, h, hmono => by
    obtain ⟨hlater, hrest⟩ := List.pairwise_cons.mp hmono
    have hnext : Ahead cfg (times es) (agg.flushDue cfg t).2 agg₀ := h.flushDue hlater
    have ih := emitted_ahead c hnext hrest
    change ofClient c (agg₀.emitted cfg (adds es)) =
      lead agg agg₀ c ++ ofClient c ((agg.flushDue cfg t).1 ++
        (agg.flushDue cfg t).2.emitted cfg es)
    rw [ih, h.flushDue_emits, ofClient_append, List.append_assoc]
  | .restart :: es, agg, agg₀, h, hmono => by
    have hnext : Ahead cfg (times es) agg agg₀ := h
    have ih := emitted_ahead c hnext hmono
    change ofClient c (agg₀.emitted cfg (adds es)) = lead agg agg₀ c ++
      ofClient c (((Aggregator.fresh agg.issued).loadState agg.exportState).emitted cfg es)
    rw [Aggregator.loadState_exportState h.keyed, ih]

theorem keyed_fresh (issued : ℕ) : (Aggregator.fresh issued).Keyed := by
  intro e he
  cases he

/-- **Ticks and restarts do not show**: a client's requests are what they are without them. -/
theorem requestsOf_eq_adds {es : List Event} (hmono : (times es).Pairwise (· ≤ ·)) (c : String) :
    requestsOf cfg c es = requestsOf cfg c (adds es) := by
  have hstart : Ahead cfg (times es) (Aggregator.fresh 0) (Aggregator.fresh 0) :=
    ⟨keyed_fresh 0, keyed_fresh 0, rfl, fun _ => .inl rfl⟩
  exact (emitted_ahead c hstart hmono).symm

/-! ### The greedy windows -/

/-- A message joins the messages before it, `first` being the first of its request and `last` the one
just before: it comes within both windows. -/
def Near (cfg : AggregatorConfig) (first last next : Message × Instant) : Prop :=
  next.2 - last.2 < cfg.inactivity ∧ next.2 - first.2 < cfg.maxDuration

/-- A message without its place. -/
def unplaced (m : Message) : Message := { m with order := 0 }

/-- Messages numbered from 0. -/
def numbered (g : List (Message × Instant)) : List Message :=
  g.mapIdx fun i x => { x.1 with order := i }

/-- What a request says of its messages. -/
def AggregatedRequest.span (r : AggregatedRequest) : Option Instant × Option Instant × List Message :=
  (some r.startedAt, some r.lastAt, r.messages)

/-- What it should say of the messages `g`. -/
def spanOf (g : List (Message × Instant)) : Option Instant × Option Instant × List Message :=
  (g.head?.map (·.2), g.getLast?.map (·.2), numbered g)

variable (cfg) in
/-- **The requests of a client are its messages, divided by the windows.** -/
structure Divided (messages : List (Message × Instant)) (rs : List AggregatedRequest) : Prop where
  complete : (rs.flatMap (·.messages)).map unplaced = messages.map fun x => unplaced x.1
  order : ∀ r ∈ rs, r.messages.map (·.order) = List.range r.messages.length
  windows : ∃ groups, Divides (Near cfg) messages groups ∧ rs.map (·.span) = groups.map spanOf

/-- A client's bucket and the requests `done` before it, as a division of the messages so far. -/
inductive Tracks (cfg : AggregatorConfig) (done : List AggregatedRequest) :
    Option OpenBucket → List (Message × Instant) → Prop
  | nothing (hdone : done = []) : Tracks cfg done none []
  | filling (bucket : OpenBucket) (gs : List (List (Message × Instant)))
      (g messages : List (Message × Instant)) (hdiv : Divides (Near cfg) messages (gs ++ [g]))
      (hdone : done.map (·.span) = gs.map spanOf) (hspan : bucket.closed.span = spanOf g) :
      Tracks cfg done (some bucket) messages

section spans

variable {g : List (Message × Instant)} {m : Message} {t : Instant} {bucket : OpenBucket}

theorem numbered_append : numbered (g ++ [(m, t)]) = numbered g ++ [{ m with order := g.length }] := by
  simp [numbered, List.mapIdx_append]

theorem length_numbered : (numbered g).length = g.length := by
  simp [numbered]

theorem map_unplaced_numbered : (numbered g).map unplaced = g.map fun x => unplaced x.1 := by
  refine List.ext_getElem (by simp [numbered]) fun i hi hi' => ?_
  simp [numbered, unplaced]

theorem map_order_numbered : (numbered g).map (·.order) = List.range g.length := by
  refine List.ext_getElem (by simp [numbered]) fun i hi hi' => ?_
  simp [numbered]

theorem span_append (h : bucket.closed.span = spanOf g) (hg : g ≠ []) :
    (bucket.append m t).closed.span = spanOf (g ++ [(m, t)]) := by
  simp only [AggregatedRequest.span, OpenBucket.closed, spanOf, Prod.mk.injEq] at h
  obtain ⟨hstart, -, hmessages⟩ := h
  have hlen : bucket.messages.length = g.length := by rw [hmessages, length_numbered]
  simp only [AggregatedRequest.span, OpenBucket.closed, OpenBucket.append, spanOf, Prod.mk.injEq]
  refine ⟨?_, by simp, ?_⟩
  · rw [List.head?_append_of_ne_nil _ hg]
    exact hstart
  · rw [numbered_append, hlen, hmessages]

theorem span_opening {agg : Aggregator} {c : String} :
    (agg.opening cfg c m t).closed.span = spanOf [(m, t)] := rfl

/-- **The bucket of `g` is active** for a message that is near. -/
theorem active_iff (h : bucket.closed.span = spanOf g) (hg : g ≠ []) :
    cfg.active bucket t = true ↔
      ∀ first ∈ g.head?, ∀ last ∈ g.getLast?, Near cfg first last (m, t) := by
  have hfirst : g.head? = some (g.head hg) := List.head?_eq_some_head hg
  have hlast : g.getLast? = some (g.getLast hg) := List.getLast?_eq_some_getLast hg
  simp only [AggregatedRequest.span, OpenBucket.closed, spanOf, hfirst, hlast, Option.map_some,
    Prod.mk.injEq, Option.some.injEq] at h
  simp [AggregatorConfig.active, Near, hfirst, hlast, h.1, h.2.1]

end spans

section plain

variable {c : String} {done : List AggregatedRequest} {messages : List (Message × Instant)}
  {agg : Aggregator} {m : Message} {t : Instant}

theorem ofClient_of_dueOf (h : agg.Keyed) :
    ofClient c ((agg.dueOf cfg c t).map (·.closed)).toList =
      ((agg.dueOf cfg c t).map (·.closed)).toList := by
  cases hdue : agg.dueOf cfg c t with
  | none => rfl
  | some bucket =>
    have hclient : bucket.clientId = c := Ahead.clientId_dueOf h hdue
    simp [ofClient, OpenBucket.closed, hclient]

/-- **A message of the client** joins its bucket, or closes it and opens the next. -/
theorem Tracks.add (h : Tracks cfg done (agg.openBuckets.get c) messages) (hk : agg.Keyed) :
    Tracks cfg (done ++ ofClient c (agg.add cfg c m t).1.toList)
      ((agg.add cfg c m t).2.openBuckets.get c) (messages ++ [(m, t)]) := by
  rw [Aggregator.get_add, if_pos rfl, Aggregator.add_emits, ofClient_of_dueOf hk,
    Aggregator.dueOf, Aggregator.joined]
  generalize agg.openBuckets.get c = b at h
  cases h with
  | nothing hdone =>
    refine .filling _ [] [(m, t)] _ (Divides.nil.start (by simp)) ?_ span_opening
    simp [hdone]
  | filling bucket gs g _ hdiv hdone hspan =>
    have hg : g ≠ [] := hdiv.nonempty g (by simp)
    cases hactive : cfg.active bucket t with
    | true =>
      simp only [hactive, if_pos, Option.filter_some, Bool.not_true, Bool.false_eq_true, if_false,
        Option.map_none, Option.toList_none, List.append_nil]
      exact .filling _ gs (g ++ [(m, t)]) _ (hdiv.join ((active_iff hspan hg).mp hactive)) hdone
        (span_append hspan hg)
    | false =>
      simp only [hactive, Option.filter_some, Bool.not_false, if_pos, Bool.false_eq_true, if_false,
        Option.map_some, Option.toList_some]
      refine .filling _ (gs ++ [g]) [(m, t)] _ (hdiv.start ?_) ?_ span_opening
      · intro g' hg' first hfirst last hlast hnear
        obtain rfl : g = g' := by simpa using hg'
        have hyes : cfg.active bucket t = true := (active_iff hspan hg).mpr fun f hf l hl => by
          rw [Option.mem_unique hf hfirst, Option.mem_unique hl hlast]
          exact hnear
        rw [hactive] at hyes
        cases hyes
      · rw [List.map_append, hdone, List.map_append]
        exact congrArg _ (congrArg (fun x => [x]) hspan)

theorem Tracks.close (h : Tracks cfg done (agg.openBuckets.get c) messages) (hk : agg.Keyed) :
    ∃ groups, Divides (Near cfg) messages groups ∧
      (done ++ ofClient c agg.flushAll.1).map (·.span) = groups.map spanOf := by
  rw [Aggregator.flushAll_emits hk]
  generalize agg.openBuckets.get c = b at h
  cases h with
  | nothing hdone => exact ⟨[], .nil, by simp [hdone]⟩
  | filling bucket gs g _ hdiv hdone hspan =>
    refine ⟨gs ++ [g], hdiv, ?_⟩
    rw [List.map_append, hdone, List.map_append]
    exact congrArg _ (congrArg (fun x => [x]) hspan)

end plain

/-- The requests of a client without ticks, from any point on. -/
theorem tracks_emitted {c : String} : ∀ {es : List Event} {agg : Aggregator}
    {done : List AggregatedRequest} {messages : List (Message × Instant)}, agg.Keyed →
      Tracks cfg done (agg.openBuckets.get c) messages →
        ∃ groups, Divides (Near cfg) (messages ++ arrivals c es) groups ∧
          (done ++ ofClient c (agg.emitted cfg (adds es))).map (·.span) = groups.map spanOf
  | [], agg, done, messages, hk, h => by
    have hclose := h.close hk
    rwa [arrivals, List.filterMap_nil, List.append_nil]
  | .add c' m t :: es, agg, done, messages, hk, h => by
    have hemit : ofClient c (agg.emitted cfg (adds (.add c' m t :: es))) =
        ofClient c (agg.add cfg c' m t).1.toList ++
          ofClient c ((agg.add cfg c' m t).2.emitted cfg (adds es)) := ofClient_append
    rw [hemit, ← List.append_assoc]
    by_cases hc : c' = c
    · subst hc
      have harrive : arrivals c' (.add c' m t :: es) = (m, t) :: arrivals c' es := by
        simp [arrivals, Event.arrival]
      obtain ⟨groups, hdiv, hspan⟩ := tracks_emitted hk.add (h.add hk (m := m) (t := t))
      refine ⟨groups, ?_, hspan⟩
      rwa [harrive, ← List.singleton_append, ← List.append_assoc]
    · have harrive : arrivals c (.add c' m t :: es) = arrivals c es := by
        simp [arrivals, Event.arrival, hc]
      have hnone : ofClient c (agg.add cfg c' m t).1.toList = [] := by
        rw [Aggregator.add_emits]
        cases hdue : agg.dueOf cfg c' t with
        | none => rfl
        | some bucket =>
          have hclient : bucket.clientId = c' := Ahead.clientId_dueOf hk hdue
          simp [ofClient, OpenBucket.closed, hclient, hc]
      rw [hnone, List.append_nil, harrive]
      refine tracks_emitted hk.add ?_
      rwa [Aggregator.get_add, if_neg (Ne.symm hc)]
  | .flushDue t :: es, agg, done, messages, hk, h => by
    change ∃ groups, Divides (Near cfg) (messages ++ arrivals c es) groups ∧
      (done ++ ofClient c (agg.emitted cfg (adds es))).map (·.span) = groups.map spanOf
    exact tracks_emitted hk h
  | .restart :: es, agg, done, messages, hk, h => by
    change ∃ groups, Divides (Near cfg) (messages ++ arrivals c es) groups ∧
      (done ++ ofClient c (agg.emitted cfg (adds es))).map (·.span) = groups.map spanOf
    exact tracks_emitted hk h

theorem divided_of_windows {messages : List (Message × Instant)} {rs : List AggregatedRequest}
    (h : ∃ groups, Divides (Near cfg) messages groups ∧ rs.map (·.span) = groups.map spanOf) :
    Divided cfg messages rs := by
  obtain ⟨groups, hdiv, hspan⟩ := h
  have hmessages : rs.map (·.messages) = groups.map numbered := by
    have hthird := congrArg (List.map fun s => s.2.2) hspan
    rw [List.map_map, List.map_map] at hthird
    exact hthird
  refine ⟨?_, fun r hr => ?_, groups, hdiv, hspan⟩
  · rw [List.flatMap_def, hmessages, ← hdiv.flatten, List.map_flatten, List.map_flatten,
      List.map_map]
    exact congrArg _ (List.map_congr_left fun g _ => map_unplaced_numbered)
  · have hmem : r.messages ∈ groups.map numbered := hmessages ▸ List.mem_map_of_mem hr
    obtain ⟨g, -, hg⟩ := List.mem_map.mp hmem
    rw [← hg, map_order_numbered, length_numbered]

/-- **Aggregation is the greedy window partition**, whatever the ticks and restarts: they change
nothing about the requests of a client, which are its messages divided by the two windows. -/
theorem greedy_partition {es : List Event} (hmono : (times es).Pairwise (· ≤ ·)) (c : String) :
    requestsOf cfg c es = requestsOf cfg c (adds es) ∧
      Divided cfg (arrivals c es) (requestsOf cfg c es) := by
  have heq : requestsOf cfg c es = requestsOf cfg c (adds es) := requestsOf_eq_adds hmono c
  have hstart : Tracks cfg [] ((Aggregator.fresh 0).openBuckets.get c) [] := .nothing rfl
  have hdivided : Divided cfg (arrivals c es) (requestsOf cfg c (adds es)) :=
    divided_of_windows (tracks_emitted (keyed_fresh 0) hstart)
  exact ⟨heq, heq ▸ hdivided⟩

namespace Sample

/-- A minute of silence or ten minutes in all close a request. -/
def windows : AggregatorConfig := ⟨60, 600, fun n => "r" ++ natText n⟩

def message (id : String) (now : Instant) : Message :=
  ⟨id, .text, 0, now, some "How much for a deck?", none, none, none, none, none⟩

/-- Two clients, with a tick and a restart in between. -/
def events : List Event :=
  [.add "ana" (message "m1" 0) 0, .add "bea" (message "m2" 1) 1, .flushDue (seconds 30), .restart,
    .add "ana" (message "m3" (seconds 59)) (seconds 59), .flushDue (seconds 61),
    .add "bea" (message "m4" (seconds 62)) (seconds 62)]

end Sample

open Sample in
/-- The request of `bea` is closed by the tick, that of `ana` goes on. -/
theorem greedy_partition_ticks :
    (requestsOf windows "bea" events).map (·.requestId) = ["r1", "r2"] ∧
      (requestsOf windows "ana" events = requestsOf windows "ana" (adds events) ∧
        Divided windows (arrivals "ana" events) (requestsOf windows "ana" events)) :=
  ⟨by decide +kernel, greedy_partition (by decide) "ana"⟩

end WappPlanner.Aggregation
