import WappPlanner.Ingestion.Durability

/-! # Nothing is taken up twice

What raises loses messages, but it duplicates none. The closed buckets that were handed over, those a
call has popped and the open ones are boxes with request ids for names: a call takes a box from one of
these lists to the next, or drops it, and a new message goes into one box (`Taken`). So, whatever
raises, no request id is used twice and no message is held at two places. -/

namespace WappPlanner.Ingestion

open WappPlanner.Aggregation WappPlanner.Domain.Models WappPlanner.Errors
open WappPlanner.Ingestion.Parser WappPlanner.Lib WappPlanner.Lib.Placement WappPlanner.Lib.Runs
open WappPlanner.Orchestrator WappPlanner.Py.Text WappPlanner.Py.Values

/-- A closed bucket as a box: its request id, and the ids of its messages. -/
def boxOf (r : AggregatedRequest) : String × List String := (r.requestId, r.messages.map (·.id))

/-- The open buckets as boxes. -/
def openBoxes (agg : Aggregator) : List (String × List String) :=
  agg.openBuckets.entries.map fun e => boxOf e.2.closed

/-- All boxes: what was handed over, what a call has popped, and what is open. -/
def State.boxes (s : State) (popped : List AggregatedRequest) : List (String × List String) :=
  s.handed.map (fun b => boxOf b.aggregated) ++ (popped.map boxOf ++ openBoxes s.aggregator)

section moves

variable (service : IngestionService)

/-- The boxes are apart, their names were issued, and what they contain was claimed. -/
structure Taken (popped : List AggregatedRequest) (s : State) : Prop where
  apart : Apart (s.boxes popped)
  issued : ∀ b ∈ s.boxes popped, ∃ i < s.aggregator.issued, b.1 = service.windows.idFactory i
  claimed : ∀ b ∈ s.boxes popped, ∀ id ∈ b.2, id ∈ s.seen

variable {service} {s t : State} {popped : List AggregatedRequest} {key : String}
  {bucket : OpenBucket} {message : Message} {now : Instant} {handling : Handling}

theorem perm_openBoxes {agg : Aggregator} (h : agg.openBuckets.get key = some bucket) :
    (openBoxes agg).Perm (boxOf bucket.closed :: openBoxes (agg.dropBucket key)) :=
  (Dict.perm_of_get h).map _

theorem perm_openBoxes_set {agg : Aggregator} {issued : ℕ} :
    (openBoxes ⟨agg.openBuckets.set key bucket, issued⟩).Perm
      (boxOf bucket.closed :: openBoxes (agg.dropBucket key)) :=
  Dict.perm_set.map _

theorem Taken.fewer (h : Taken service popped s) {popped' : List AggregatedRequest}
    (hboxes : (t.boxes popped').Subperm (s.boxes popped))
    (hissued : s.aggregator.issued ≤ t.aggregator.issued) (hseen : s.seen ⊆ t.seen) :
    Taken service popped' t where
  apart := h.apart.subperm hboxes
  issued b hb := by
    obtain ⟨i, hi, hname⟩ := h.issued b (hboxes.subset hb)
    exact ⟨i, hi.trans_le hissued, hname⟩
  claimed b hb id hid := hseen (h.claimed b (hboxes.subset hb) id hid)

theorem Taken.pop (h : Taken service popped s)
    (hb : s.aggregator.openBuckets.get key = some bucket) :
    Taken service (bucket.closed :: popped) (s.withAggregator (s.aggregator.dropBucket key)) := by
  refine h.fewer (List.Perm.subperm ?_) le_rfl subset_rfl
  refine List.Perm.append_left _ ?_
  have hopen := (perm_openBoxes hb).append_left (popped.map boxOf)
  exact (hopen.trans List.perm_middle).symm

theorem perm_boxes_set {issued : ℕ} :
    ((s.withAggregator ⟨s.aggregator.openBuckets.set key bucket, issued⟩).boxes popped).Perm
      (boxOf bucket.closed ::
        (s.withAggregator (s.aggregator.dropBucket key)).boxes popped) := by
  have hset : (openBoxes ⟨s.aggregator.openBuckets.set key bucket, issued⟩).Perm
      (boxOf bucket.closed :: openBoxes (s.aggregator.dropBucket key)) := perm_openBoxes_set
  have hfront := ((hset.append_left (popped.map boxOf)).trans List.perm_middle).append_left
    (s.handed.map fun b => boxOf b.aggregated)
  exact hfront.trans List.perm_middle

theorem Taken.start (hids : Function.Injective service.windows.idFactory)
    (h : Taken service popped s) (hnone : s.aggregator.openBuckets.get key = none)
    (hnew : ∀ b ∈ s.boxes popped, message.id ∉ b.2) (hseen : message.id ∈ s.seen) :
    Taken service popped
      (s.withAggregator (s.aggregator.startBucket service.windows key message now)) := by
  have hkey : key ∉ s.aggregator.openBuckets.keys := by
    intro hmem
    obtain ⟨⟨k, bucket⟩, he, rfl⟩ := List.mem_map.mp hmem
    rw [Dict.get_eq_some.mpr he] at hnone
    cases hnone
  have hdrop : (s.withAggregator (s.aggregator.dropBucket key)).boxes popped = s.boxes popped := by
    unfold State.boxes openBoxes
    rw [show (s.withAggregator (s.aggregator.dropBucket key)).aggregator.openBuckets.entries =
      s.aggregator.openBuckets.entries from Dict.erase_of_notMem hkey]
    rfl
  have hperm : ((s.withAggregator (s.aggregator.startBucket service.windows key message now)).boxes
      popped).Perm ((service.windows.idFactory s.aggregator.issued, [message.id]) ::
        (s.withAggregator (s.aggregator.dropBucket key)).boxes popped) := perm_boxes_set
  rw [hdrop] at hperm
  have hname : ∀ b ∈ s.boxes popped, b.1 ≠ service.windows.idFactory s.aggregator.issued := by
    intro b hb heq
    obtain ⟨i, hi, hb⟩ := h.issued b hb
    have hsame := hids (hb.symm.trans heq)
    omega
  refine ⟨(h.apart.cons hname hnew).perm hperm.symm, fun b hb => ?_, fun b hb id hid => ?_⟩
  · rcases List.mem_cons.mp (hperm.mem_iff.mp hb) with rfl | hb
    · exact ⟨_, Nat.lt_succ_self _, rfl⟩
    · obtain ⟨i, hi, hb⟩ := h.issued b hb
      exact ⟨i, hi.trans (Nat.lt_succ_self _), hb⟩
  · rcases List.mem_cons.mp (hperm.mem_iff.mp hb) with rfl | hb
    · rw [List.mem_singleton.mp hid]
      exact hseen
    · exact h.claimed b hb id hid

theorem Taken.join (h : Taken service popped s)
    (hb : s.aggregator.openBuckets.get key = some bucket)
    (hnew : ∀ b ∈ s.boxes popped, message.id ∉ b.2) (hseen : message.id ∈ s.seen) :
    Taken service popped (s.withAggregator
      ⟨s.aggregator.openBuckets.set key (bucket.append message now), s.aggregator.issued⟩) := by
  have hbefore : (s.boxes popped).Perm (boxOf bucket.closed ::
      (s.withAggregator (s.aggregator.dropBucket key)).boxes popped) := by
    have hopen := (perm_openBoxes hb).append_left (popped.map boxOf)
    have hfront := (hopen.trans List.perm_middle).append_left
      (s.handed.map fun b => boxOf b.aggregated)
    exact hfront.trans List.perm_middle
  have hafter : ((s.withAggregator ⟨s.aggregator.openBuckets.set key (bucket.append message now),
      s.aggregator.issued⟩).boxes popped).Perm (boxOf (bucket.append message now).closed ::
        (s.withAggregator (s.aggregator.dropBucket key)).boxes popped) := perm_boxes_set
  have hbox : boxOf (bucket.append message now).closed =
      (bucket.requestId, bucket.messages.map (·.id) ++ [message.id]) := by
    simp [boxOf, OpenBucket.append, OpenBucket.closed]
  rw [hbox] at hafter
  have hput := (h.apart.perm hbefore).put fun b hb => hnew b (hbefore.mem_iff.mpr hb)
  refine ⟨hput.perm hafter.symm, fun b hb => ?_, fun b hb id hid => ?_⟩
  · rcases List.mem_cons.mp (hafter.mem_iff.mp hb) with rfl | hb
    · exact h.issued (boxOf bucket.closed) (hbefore.mem_iff.mpr List.mem_cons_self)
    · exact h.issued b (hbefore.mem_iff.mpr (List.mem_cons_of_mem _ hb))
  · rcases List.mem_cons.mp (hafter.mem_iff.mp hb) with rfl | hb
    · rcases List.mem_append.mp hid with hid | hid
      · exact h.claimed (boxOf bucket.closed) (hbefore.mem_iff.mpr List.mem_cons_self) id hid
      · rw [List.mem_singleton.mp hid]
        exact hseen
    · exact h.claimed b (hbefore.mem_iff.mpr (List.mem_cons_of_mem _ hb)) id hid

/-- **A popped bucket is handed over**, or lost. -/
theorem Taken.process {r : AggregatedRequest} {rest : List AggregatedRequest}
    (h : Taken service (r :: rest) s) :
    Taken service rest (service.process handling r now s).2 := by
  rcases service.process_cases handling r now s with ⟨exc, -, hp⟩ | ⟨media, -, hp⟩
  · rw [hp]
    refine h.fewer (List.Sublist.subperm ?_) le_rfl subset_rfl
    exact List.Sublist.append_left (List.sublist_cons_self _ _) _
  · rw [hp]
    refine h.fewer (List.Perm.subperm (List.Perm.of_eq ?_)) le_rfl subset_rfl
    simp [State.boxes, State.ingested, IngestionService.batchOf]

theorem Taken.processAll {handling : ℕ → Handling} : ∀ {n : ℕ} {due : List AggregatedRequest}
    {s : State}, Taken service due s → Taken service [] (service.processAll handling now n due s).2
  | _, [], _, h => h
  | n, r :: rest, s, h => by
    have hone : Taken service rest (service.process (handling n) r now s).2 := h.process
    rw [IngestionService.processAll]
    rcases hp : service.process (handling n) r now s with ⟨_ | _, s'⟩
    · rw [hp] at hone
      refine hone.fewer (List.Sublist.subperm ?_) le_rfl subset_rfl
      exact List.Sublist.append_left (List.sublist_append_right _ _) _
    · rw [hp] at hone
      exact hone.processAll

theorem Taken.popAll : ∀ {due : List (String × OpenBucket)} {s : State}
    {popped : List AggregatedRequest}, Taken service popped s →
      (∀ e ∈ due, s.aggregator.openBuckets.get e.1 = some e.2) → (due.map Prod.fst).Nodup →
        Taken service (due.map (fun e => e.2.closed) ++ popped)
          (s.withAggregator (due.foldl (fun agg e => agg.dropBucket e.1) s.aggregator))
  | [], _, _, h, _, _ => h
  | (key, bucket) :: rest, s, popped, h, hopen, hnodup => by
    rw [List.map_cons, List.nodup_cons] at hnodup
    have hone := h.pop (hopen _ List.mem_cons_self)
    have hstill : ∀ e ∈ rest, (s.aggregator.dropBucket key).openBuckets.get e.1 = some e.2 := by
      intro e he
      have hne : e.1 ≠ key := fun heq => hnodup.1 (List.mem_map.mpr ⟨e, he, heq⟩)
      exact Dict.get_erase.trans ((if_neg hne).trans (hopen e (List.mem_cons_of_mem _ he)))
    have hrest := Taken.popAll hone hstill hnodup.2
    refine hrest.fewer (List.Perm.subperm ?_) le_rfl subset_rfl
    refine List.Perm.append_left _ (List.Perm.append_right _ (List.Perm.map _ ?_))
    exact List.perm_middle.symm

/-- **A new message goes into one box**, and the bucket that it displaces is handed over or lost. -/
theorem Taken.addMessage (hids : Function.Injective service.windows.idFactory)
    (h : Taken service [] s) (hnew : ∀ b ∈ s.boxes [], message.id ∉ b.2)
    (hseen : message.id ∈ s.seen) :
    Taken service [] (service.addMessage handling key message now s).2 := by
  unfold IngestionService.addMessage
  cases hb : s.aggregator.openBuckets.get key with
  | none =>
    rw [Aggregator.add_none hb]
    exact h.start hids hb hnew hseen
  | some bucket =>
    cases hactive : service.windows.active bucket now with
    | true =>
      rw [Aggregator.add_active hb hactive]
      exact h.join hb hnew hseen
    | false =>
      rw [Aggregator.add_due hb hactive]
      have hpopped : Taken service [bucket.closed]
          (s.withAggregator (s.aggregator.dropBucket key)) := h.pop hb
      have hsub : ((s.withAggregator (s.aggregator.dropBucket key)).boxes [bucket.closed]).Perm
          (s.boxes []) := by
        have hopen := (perm_openBoxes hb).append_left (s.handed.map fun b => boxOf b.aggregated)
        exact hopen.symm
      have hstarted : Taken service [bucket.closed] (s.withAggregator
          ((s.aggregator.dropBucket key).startBucket service.windows key message now)) :=
        hpopped.start hids (Dict.get_erase.trans (if_pos rfl))
          (fun b hb => hnew b (hsub.mem_iff.mp hb)) hseen
      exact hstarted.process

/-- **Accepting a message takes up no id twice**, whatever raises. -/
theorem Taken.accept {parsed : ParsedMessage} (hids : Function.Injective service.windows.idFactory)
    (h : Taken service [] s) (hnew : parsed.whatsappId ∉ s.seen) :
    Taken service [] (service.accept handling parsed now s).2 := by
  unfold IngestionService.accept
  have hclaimed : Taken service [] ((s.claim parsed).resolved service.registry parsed) :=
    h.fewer (List.Subperm.refl _) le_rfl (Finset.subset_insert _ _)
  have hboxes : ((s.claim parsed).resolved service.registry parsed).boxes [] = s.boxes [] := rfl
  have hseen : parsed.whatsappId ∈ ((s.claim parsed).resolved service.registry parsed).seen :=
    Finset.mem_insert_self _ _
  generalize (s.claim parsed).resolved service.registry parsed = s₁ at hclaimed hboxes hseen ⊢
  obtain ⟨world, downloads, hdownload⟩ := service.download_eq handling s₁ parsed
  dsimp only
  generalize service.download handling parsed s₁ = downloaded at hdownload ⊢
  obtain ⟨rawRef, s₂⟩ := downloaded
  dsimp only at hdownload ⊢
  subst hdownload
  have hdownloaded : Taken service [] { s₁ with world := world, downloads := downloads } :=
    hclaimed.fewer (List.Subperm.refl _) le_rfl subset_rfl
  cases hmessage : messageOf parsed rawRef with
  | error exc => exact hdownloaded
  | ok message =>
    obtain ⟨hid, -⟩ := messageOf_eq hmessage
    refine hdownloaded.addMessage hids (fun b hb hmem => ?_) (hid ▸ hseen)
    have hb' : b ∈ s.boxes [] := hboxes ▸ hb
    exact hnew (hid ▸ h.claimed b hb' _ hmem)

theorem Taken.flushDue {handling : ℕ → Handling} (h : Taken service [] s) :
    Taken service [] (service.flushDue now handling s).2 := by
  have hopen : ∀ e ∈ s.aggregator.due service.windows now,
      s.aggregator.openBuckets.get e.1 = some e.2 := fun e he =>
    Dict.get_eq_some.mpr (List.mem_filter.mp he).1
  have hpopped := Taken.popAll h hopen
    ((List.filter_sublist.map Prod.fst).nodup s.aggregator.openBuckets.nodup)
  rw [List.append_nil] at hpopped
  exact hpopped.processAll

/-- **No call takes anything up twice**, whether it returns or raises. -/
theorem Taken.step {input : Input} (hids : Function.Injective service.windows.idFactory)
    (h : Taken service [] s) : Taken service [] (service.step s input) := by
  cases input with
  | flushDue now handling => exact h.flushDue
  | receive rawBody header now wall handling =>
    unfold IngestionService.step IngestionService.answer IngestionService.receive
    dsimp only
    cases hmessages : service.messagesOf rawBody header wall with
    | error exc => exact h
    | ok messages =>
      exact IngestionService.acceptAll_keeps (fun _ _ _ _ hs hnew => hs.accept hids hnew) h

theorem taken_initial : Taken service [] State.initial where
  apart := ⟨List.nodup_nil, List.nodup_nil⟩
  issued _ hb := by cases hb
  claimed _ hb := by cases hb

end moves

end WappPlanner.Ingestion
