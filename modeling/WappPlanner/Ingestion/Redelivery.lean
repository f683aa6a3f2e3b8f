import WappPlanner.Ingestion.Service
import WappPlanner.Lib.Runs

/-! # Redeliveries

A message whose id was claimed is skipped before anything is looked up, downloaded or added, so a body
is received as if its duplicates were not there: those claimed before, and those that repeat an earlier
message of the same body (`receive_without`). A redelivery, whole or regrouped, changes nothing at all
(`receive_redelivery`), and a run with redeliveries inserted is the run without them
(`redelivery_invisible`). -/

namespace WappPlanner.Ingestion

open WappPlanner.Errors WappPlanner.Ingestion.Parser WappPlanner.Ingestion.Signature
open WappPlanner.Lib.Fallible WappPlanner.Lib.Runs WappPlanner.Orchestrator WappPlanner.Py.Text
open WappPlanner.Py.Values WappPlanner.Workflow.Enums

/-! ### Bodies without their duplicates -/

/-- The id under which a message object is claimed, if it is one that is parsed. -/
def claimedId (T : Tables) : Json → Option String
  | .obj fields =>
    match fields.lookup "id", resolveType fields with
    | some id, some _ => some (str T id)
    | _, _ => none
  | _ => none

/-- The message objects whose ids were not claimed and do not repeat, and the ids claimed after
them. -/
def newMessages (T : Tables) : Finset String → List Json → List Json × Finset String
  | seen, [] => ([], seen)
  | seen, message :: rest =>
    match claimedId T message with
    | none => (message :: (newMessages T seen rest).1, (newMessages T seen rest).2)
    | some id =>
      if id ∈ seen then newMessages T seen rest
      else (message :: (newMessages T (insert id seen) rest).1, (newMessages T (insert id seen) rest).2)

/-- `d` with `d[key] = v`. -/
def setItem (fields : Fields) (key : String) (v : Json) : Fields :=
  fields.map fun e => if e.1 = key then (key, v) else e

/-- A value without its duplicates. -/
def newValue (T : Tables) (seen : Finset String) (value : Fields) : Fields × Finset String :=
  match item value "messages" (.arr []) with
  | .arr messages =>
    (setItem value "messages" (.arr (newMessages T seen messages).1), (newMessages T seen messages).2)
  | _ => (value, seen)

/-- The values of a payload without its duplicates. -/
def newValues (T : Tables) : Finset String → List Fields → List Fields
  | _, [] => []
  | seen, value :: rest => (newValue T seen value).1 :: newValues T (newValue T seen value).2 rest

/-- **The second payload is the first one without its duplicates**: it has the same values, less the
message objects whose ids were claimed or occurred earlier. -/
def Without (T : Tables) (seen : Finset String) (payload payload' : Json) : Prop :=
  ∃ values, iterValues payload = .ok values ∧ iterValues payload' = .ok (newValues T seen values)

/-- The messages whose ids were not claimed and do not repeat. -/
def fresh : Finset String → List ParsedMessage → List ParsedMessage
  | _, [] => []
  | seen, parsed :: rest =>
    if parsed.whatsappId ∈ seen then fresh seen rest
    else parsed :: fresh (insert parsed.whatsappId seen) rest

/-- The ids claimed after a list of messages. -/
def claimAll (seen : Finset String) (messages : List ParsedMessage) : Finset String :=
  messages.foldl (fun seen parsed => insert parsed.whatsappId seen) seen

/-- The parsed ones among parsed and skipped messages. -/
abbrev parsedOf (xs : List (ParsedMessage ⊕ String)) : List ParsedMessage :=
  xs.filterMap Sum.getLeft?

theorem parsedOf_append (xs ys : List (ParsedMessage ⊕ String)) :
    parsedOf (xs ++ ys) = parsedOf xs ++ parsedOf ys := List.filterMap_append

section parsing

variable {T : Tables} {wall : Json → Instant} {contacts : List (String × Json)}
  {seen : Finset String}

/-! ### Messages -/

theorem claimAll_cons (parsed : ParsedMessage) (l : List ParsedMessage) :
    claimAll seen (parsed :: l) = claimAll (insert parsed.whatsappId seen) l := rfl

theorem fresh_append : ∀ (seen : Finset String) (l l' : List ParsedMessage),
    fresh seen (l ++ l') = fresh seen l ++ fresh (claimAll seen l) l'
  | _, [], _ => rfl
  | seen, parsed :: l, l' => by
    rw [List.cons_append, fresh, fresh, fresh_append, fresh_append, claimAll_cons]
    split_ifs with h
    · rw [Finset.insert_eq_of_mem h]
    · rfl

theorem buildMessage_id {wallNow : Instant} {fields : Fields} {id : Json} {mtype : MessageType}
    {parsed : ParsedMessage} (h : buildMessage T wallNow fields id mtype contacts = .ok parsed) :
    parsed.whatsappId = str T id := by
  unfold buildMessage at h
  obtain ⟨t, -, h⟩ := bind_eq_ok.mp h
  split at h
  · cases h
  · dsimp only at h
    split at h
    · obtain ⟨text, -, h⟩ := bind_eq_ok.mp h
      rw [← Except.ok.inj h]
    · obtain ⟨caption, -, h⟩ := bind_eq_ok.mp h
      obtain ⟨mediaId, -, h⟩ := bind_eq_ok.mp h
      obtain ⟨mimeType, -, h⟩ := bind_eq_ok.mp h
      obtain ⟨filename, -, h⟩ := bind_eq_ok.mp h
      rw [← Except.ok.inj h]

theorem claimedId_eq {message : Json} {x : ParsedMessage ⊕ String}
    (h : parseMessage T wall contacts message = .ok x) :
    claimedId T message = x.getLeft?.map (·.whatsappId) := by
  cases message with
  | obj fields =>
    unfold parseMessage at h
    unfold claimedId
    rcases hid : fields.lookup "id" with _ | id <;> rcases htype : resolveType fields with _ | mtype <;>
      simp only [hid, htype] at h ⊢
    case some.some =>
      cases hbuild : buildMessage T (wall (.obj fields)) fields id mtype contacts with
      | error exc =>
        rw [hbuild] at h
        cases h
      | ok parsed =>
        rw [hbuild] at h
        rw [← Except.ok.inj h, Sum.getLeft?_inl, Option.map_some, buildMessage_id hbuild]
    all_goals
      rw [← Except.ok.inj h]
      rfl
  | null | bool _ | int _ | float _ | str _ | arr _ =>
    rw [← Except.ok.inj h]
    rfl

/-- The message objects of a value, without their duplicates. -/
theorem mapM_newMessages : ∀ {messages : List Json} (seen : Finset String)
    {xs : List (ParsedMessage ⊕ String)}, messages.mapM (parseMessage T wall contacts) = .ok xs →
      ∃ ys, (newMessages T seen messages).1.mapM (parseMessage T wall contacts) = .ok ys ∧
        parsedOf ys = fresh seen (parsedOf xs) ∧
          (newMessages T seen messages).2 = claimAll seen (parsedOf xs)
  | [], seen, xs, h => by
    obtain rfl := Except.ok.inj h
    exact ⟨[], rfl, rfl, rfl⟩
  | message :: rest, seen, xs, h => by
    obtain ⟨x, xs', hx, hxs', rfl⟩ := List.forall₂_cons_left_iff.mp (mapM_eq_ok.mp h)
    have hrest := mapM_eq_ok.mpr hxs'
    have hid := claimedId_eq hx
    have hcons : ∀ {seen' : Finset String} {ys : List (ParsedMessage ⊕ String)},
        (newMessages T seen' rest).1.mapM (parseMessage T wall contacts) = .ok ys →
          (message :: (newMessages T seen' rest).1).mapM (parseMessage T wall contacts) =
            .ok (x :: ys) :=
      fun hys => mapM_eq_ok.mpr (.cons hx (mapM_eq_ok.mp hys))
    rw [newMessages]
    cases x with
    | inr skipped =>
      obtain ⟨ys, hys, hparsed, hseen⟩ := mapM_newMessages seen hrest
      rw [hid]
      exact ⟨_, hcons hys, hparsed, hseen⟩
    | inl parsed =>
      rw [hid, Sum.getLeft?_inl, Option.map_some]
      dsimp only
      have hxs : parsedOf (Sum.inl parsed :: xs') = parsed :: parsedOf xs' := rfl
      rw [hxs, fresh, claimAll, List.foldl_cons]
      split_ifs with hmem
      · obtain ⟨ys, hys, hparsed, hseen⟩ := mapM_newMessages seen hrest
        rw [Finset.insert_eq_of_mem hmem]
        exact ⟨ys, hys, hparsed, hseen⟩
      · obtain ⟨ys, hys, hparsed, hseen⟩ :=
          mapM_newMessages (insert parsed.whatsappId seen) hrest
        refine ⟨_, hcons hys, ?_, hseen⟩
        rw [← hparsed]
        rfl

/-! ### Values and payloads -/

theorem lookup_setItem {fields : Fields} {key k : String} {v : Json} :
    (setItem fields key v).lookup k =
      if k = key then (fields.lookup key).map fun _ => v else fields.lookup k := by
  unfold setItem
  induction fields with
  | nil => split_ifs <;> rfl
  | cons e fields ih =>
    obtain ⟨k₀, v₀⟩ := e
    rw [List.map_cons, List.lookup_cons, List.lookup_cons]
    by_cases hkey : k₀ = key
    · subst hkey
      by_cases hk : k = k₀
      · simp [hk]
      · have hb : (k == k₀) = false := beq_false_of_ne hk
        simp [List.lookup_cons, hb, ih, hk]
    · simp only [hkey, if_false, List.lookup_cons]
      by_cases hk : k = k₀
      · subst hk
        simp [hkey]
      · have hb : (k == k₀) = false := beq_false_of_ne hk
        have hb' : (key == k₀) = false := beq_false_of_ne (Ne.symm hkey)
        simp [hb, hb', ih]

theorem contactsOf_setItem (value : Fields) (v : Json) :
    contactsOf T (setItem value "messages" v) = contactsOf T value := by
  unfold contactsOf item
  rw [lookup_setItem, if_neg (by decide)]

theorem item_setItem {value : Fields} {messages : List Json}
    (h : item value "messages" (.arr []) = .arr messages) {messages' : List Json}
    (hnil : messages = [] → messages' = []) :
    item (setItem value "messages" (.arr messages')) "messages" (.arr []) = .arr messages' := by
  unfold item at h ⊢
  rw [lookup_setItem, if_pos rfl]
  cases hlookup : value.lookup "messages" with
  | none =>
    rw [hlookup] at h
    rw [hnil (Json.arr.inj h).symm]
    rfl
  | some v => rfl

/-- What a loop goes through where there is no list holds no message. -/
theorem parsedOf_of_text {items : List Json} (hitems : ∀ x ∈ items, ∃ s, x = .str s)
    {xs : List (ParsedMessage ⊕ String)}
    (h : items.mapM (parseMessage T wall contacts) = .ok xs) : parsedOf xs = [] := by
  refine List.filterMap_eq_nil_iff.mpr fun x hx => ?_
  obtain ⟨item, hitem, hparse⟩ := exists_of_mem_mapM h hx
  obtain ⟨s, rfl⟩ := hitems item hitem
  rw [← Except.ok.inj hparse]
  rfl

/-- A loop goes through a list, or through strings. -/
theorem iter_items {x : Json} {items : List Json} (h : iter x = .ok items) :
    x = .arr items ∨ (∀ l, x ≠ .arr l) ∧ ∀ y ∈ items, ∃ s, y = .str s := by
  cases x with
  | arr l => exact .inl (congrArg Json.arr (Except.ok.inj h))
  | obj fields =>
    refine .inr ⟨fun l hl => (by cases hl), fun y hy => ?_⟩
    rw [← Except.ok.inj h] at hy
    obtain ⟨e, -, rfl⟩ := List.mem_map.mp hy
    exact ⟨_, rfl⟩
  | str s =>
    refine .inr ⟨fun l hl => (by cases hl), fun y hy => ?_⟩
    rw [← Except.ok.inj h] at hy
    obtain ⟨c, -, rfl⟩ := List.mem_map.mp hy
    exact ⟨_, rfl⟩
  | null | bool _ | int _ | float _ => cases h

variable (seen) in
theorem parseValue_newValue {value : Fields} {xs : List (ParsedMessage ⊕ String)}
    (h : parseValue T wall value = .ok xs) :
    ∃ ys, parseValue T wall (newValue T seen value).1 = .ok ys ∧
      parsedOf ys = fresh seen (parsedOf xs) ∧
        (newValue T seen value).2 = claimAll seen (parsedOf xs) := by
  obtain ⟨contacts, hcontacts, h⟩ := bind_eq_ok.mp h
  obtain ⟨items, hitems, h⟩ := bind_eq_ok.mp h
  rcases iter_items hitems with harr | ⟨hno, htext⟩
  · unfold newValue
    obtain ⟨ys, hys, hparsed, hseen⟩ := mapM_newMessages seen h
    rw [harr]
    refine ⟨ys, ?_, hparsed, hseen⟩
    have hmessages : item (setItem value "messages" (.arr (newMessages T seen items).1))
        "messages" (.arr []) = .arr (newMessages T seen items).1 :=
      item_setItem harr fun hnil => by rw [hnil]; rfl
    refine bind_eq_ok.mpr ⟨contacts, (contactsOf_setItem value _).trans hcontacts,
      bind_eq_ok.mpr ⟨_, ?_, hys⟩⟩
    rw [hmessages]
    rfl
  · have hnone := parsedOf_of_text htext h
    have hvalue : newValue T seen value = (value, seen) := by
      unfold newValue
      split
      · rename_i messages harr
        exact absurd harr (hno messages)
      · rfl
    rw [hnone, hvalue]
    exact ⟨xs, bind_eq_ok.mpr ⟨contacts, hcontacts, bind_eq_ok.mpr ⟨items, hitems, h⟩⟩, hnone, rfl⟩

theorem mapM_newValues : ∀ {values : List Fields} (seen : Finset String)
    {xss : List (List (ParsedMessage ⊕ String))}, values.mapM (parseValue T wall) = .ok xss →
      ∃ yss, (newValues T seen values).mapM (parseValue T wall) = .ok yss ∧
        parsedOf yss.flatten = fresh seen (parsedOf xss.flatten)
  | [], seen, xss, h => by
    obtain rfl := Except.ok.inj h
    exact ⟨[], rfl, rfl⟩
  | value :: rest, seen, xss, h => by
    obtain ⟨xs, xss', hxs, hxss', rfl⟩ := List.forall₂_cons_left_iff.mp (mapM_eq_ok.mp h)
    obtain ⟨ys, hys, hparsed, hseen⟩ := parseValue_newValue seen hxs
    obtain ⟨yss, hyss, hrest⟩ :=
      mapM_newValues (newValue T seen value).2 (mapM_eq_ok.mpr hxss')
    refine ⟨ys :: yss, mapM_eq_ok.mpr (.cons hys (mapM_eq_ok.mp hyss)), ?_⟩
    rw [List.flatten_cons, List.flatten_cons, parsedOf_append, parsedOf_append, hparsed, hrest,
      fresh_append, hseen]

/-- **A payload without its duplicates** is parsed to the messages without theirs. -/
theorem parseWebhook_without {payload payload' : Json} {result : ParseResult}
    (h : parseWebhook T wall payload = .ok result) (hwithout : Without T seen payload payload') :
    ∃ result', parseWebhook T wall payload' = .ok result' ∧
      result'.messages = fresh seen result.messages := by
  obtain ⟨values, hvalues, hvalues'⟩ := hwithout
  obtain ⟨values', hv, h⟩ := bind_eq_ok.mp h
  obtain rfl := Except.ok.inj (hvalues.symm.trans hv)
  obtain ⟨xss, hxss, h⟩ := bind_eq_ok.mp h
  obtain ⟨yss, hyss, hparsed⟩ := mapM_newValues seen hxss
  refine ⟨_, bind_eq_ok.mpr ⟨_, hvalues', bind_eq_ok.mpr ⟨yss, hyss, rfl⟩⟩, ?_⟩
  rw [← Except.ok.inj h]
  exact hparsed

end parsing

/-! ### Receiving -/

section receiving

variable {service : IngestionService} {handling : ℕ → Handling} {now : Instant}

/-- **Duplicates are skipped**: before anything is looked up, downloaded or added. -/
theorem acceptAll_fresh : ∀ (n : ℕ) (messages : List ParsedMessage) (s : State),
    service.acceptAll handling now n (fresh s.seen messages) s =
      service.acceptAll handling now n messages s
  | _, [], _ => rfl
  | n, parsed :: rest, s => by
    rw [fresh, IngestionService.acceptAll]
    by_cases hmem : parsed.whatsappId ∈ s.seen
    · rw [if_pos hmem, if_pos hmem, acceptAll_fresh n rest s]
    · rw [if_neg hmem, if_neg hmem, IngestionService.acceptAll, if_neg hmem]
      have hseen := IngestionService.accept_seen service (handling n) s now parsed
      rcases haccept : service.accept (handling n) parsed now s with ⟨_ | _, s'⟩
      · rfl
      · rw [haccept] at hseen
        dsimp only
        rw [← hseen, acceptAll_fresh (n + 1) rest s']

/-- **A body is received as if its duplicates were not there.** -/
theorem receive_without {s : State} {rawBody rawBody' : Bytes} {header header' : Option String}
    {payload payload' : Json} {wall : Json → Instant}
    (hvalid : isValidSignature rawBody header service.appSecret = .ok true)
    (hvalid' : isValidSignature rawBody' header' service.appSecret = .ok true)
    (hloads : service.loads rawBody = .ok payload) (hloads' : service.loads rawBody' = .ok payload')
    (hparse : Succeeds (parseWebhook service.tables wall payload))
    (hwithout : Without service.tables s.seen payload payload') :
    service.receive rawBody header now wall handling s =
      service.receive rawBody' header' now wall handling s := by
  obtain ⟨result, hresult⟩ := hparse
  obtain ⟨result', hresult', hfresh⟩ := parseWebhook_without hresult hwithout
  have hmessages := IngestionService.messagesOf_eq_ok.mpr
    ⟨hvalid, payload, hloads, result, hresult, rfl⟩
  have hmessages' := IngestionService.messagesOf_eq_ok.mpr
    ⟨hvalid', payload', hloads', result', hresult', hfresh⟩
  rw [IngestionService.receive_eq hmessages, IngestionService.receive_eq hmessages']
  exact (acceptAll_fresh 0 result.messages s).symm

/-! ### Runs -/

/-- The messages that a call reads from a body. -/
def Reads (service : IngestionService) (input : Input) (messages : List ParsedMessage) : Prop :=
  ∃ rawBody header now wall handling, input = .receive rawBody header now wall handling ∧
    service.messagesOf rawBody header wall = .ok messages

/-- **A redelivery**: every message it holds occurs in a body received before. -/
def Redelivers (service : IngestionService) (past : List Input) (input : Input) : Prop :=
  ∃ messages, Reads service input messages ∧ ∀ parsed ∈ messages, ∃ earlier ∈ past, ∃ before,
    Reads service earlier before ∧ ∃ original ∈ before, original.whatsappId = parsed.whatsappId

theorem receive_redelivery {s : State} {input : Input} {messages : List ParsedMessage}
    (hreads : Reads service input messages)
    (hseen : ∀ parsed ∈ messages, parsed.whatsappId ∈ s.seen) :
    service.answer s input = (.ok 0, s) := by
  obtain ⟨rawBody, header, now, wall, handling, rfl, hmessages⟩ := hreads
  exact (IngestionService.receive_eq hmessages).trans (IngestionService.acceptAll_of_seen hseen)

theorem seen_of_returned {s : State} {input : Input} {messages : List ParsedMessage}
    (hreads : Reads service input messages) (hreturned : Succeeds (service.answer s input).1) :
    ∀ parsed ∈ messages, parsed.whatsappId ∈ (service.step s input).seen := by
  obtain ⟨rawBody, header, now, wall, handling, rfl, hmessages⟩ := hreads
  obtain ⟨k, hk⟩ := hreturned
  have hanswer : service.answer s (.receive rawBody header now wall handling) =
      service.acceptAll handling now 0 messages s := IngestionService.receive_eq hmessages
  unfold IngestionService.step
  rw [hanswer] at hk ⊢
  exact IngestionService.seen_of_acceptAll (Prod.ext hk rfl)

theorem reads_unique {input : Input} {messages messages' : List ParsedMessage}
    (h : Reads service input messages) (h' : Reads service input messages') :
    messages = messages' := by
  obtain ⟨rawBody, header, now, wall, handling, rfl, hmessages⟩ := h
  obtain ⟨_, _, _, _, _, hinput, hmessages'⟩ := h'
  cases hinput
  exact Except.ok.inj (hmessages.symm.trans hmessages')

/-- Redeliveries leave no trace, and the ids of everything that was received are claimed. -/
theorem run_redelivered {s : State} {ds : List (Input × Bool)}
    (hreturned : Along service.step (fun s c => Succeeds (service.answer s c).1) s (originals ds))
    (hredelivers : ∀ pre c post, ds = pre ++ (c, true) :: post →
      Redelivers service (pre.map Prod.fst) c) :
    run service.step s (ds.map Prod.fst) = run service.step s (originals ds) ∧
      ∀ earlier ∈ ds.map Prod.fst, ∀ messages, Reads service earlier messages →
        ∀ parsed ∈ messages,
          parsed.whatsappId ∈ (run service.step s (ds.map Prod.fst)).seen := by
  induction ds using List.reverseRecOn with
  | nil => exact ⟨rfl, fun earlier h => by cases h⟩
  | append_singleton ds d ih =>
    obtain ⟨c, inserted⟩ := d
    rw [originals_append, along_append] at hreturned
    obtain ⟨hsame, hclaimed⟩ := ih hreturned.1 fun pre c post hds =>
      hredelivers pre c (post ++ [_]) (by rw [hds, List.append_assoc, List.cons_append])
    rw [List.map_append, run_append, originals_append, run_append, ← hsame]
    rw [← hsame] at hreturned
    cases inserted with
    | false =>
      refine ⟨rfl, fun earlier hearlier messages hreads parsed hparsed => ?_⟩
      rcases List.mem_append.mp hearlier with hpast | hlast
      · exact IngestionService.subset_step _ _ (hclaimed earlier hpast messages hreads parsed hparsed)
      · obtain rfl := List.mem_singleton.mp hlast
        exact seen_of_returned hreads hreturned.2.1 parsed hparsed
    | true =>
      obtain ⟨messages, hreads, hall⟩ := hredelivers ds c [] rfl
      have hseen : ∀ parsed ∈ messages,
          parsed.whatsappId ∈ (run service.step s (ds.map Prod.fst)).seen := by
        intro parsed hparsed
        obtain ⟨earlier, hearlier, before, hbefore, original, horiginal, heq⟩ := hall parsed hparsed
        rw [← heq]
        exact hclaimed earlier hearlier before hbefore original horiginal
      have hstep : service.step (run service.step s (ds.map Prod.fst)) c =
          run service.step s (ds.map Prod.fst) :=
        congrArg Prod.snd (receive_redelivery hreads hseen)
      refine ⟨hstep, ?_⟩
      rw [show run service.step (run service.step s (ds.map Prod.fst))
        ([(c, true)].map Prod.fst) = run service.step s (ds.map Prod.fst) from hstep]
      intro earlier hearlier messages' hreads' parsed hparsed
      rcases List.mem_append.mp hearlier with hpast | hlast
      · exact hclaimed earlier hpast messages' hreads' parsed hparsed
      · obtain rfl := List.mem_singleton.mp hlast
        rw [reads_unique hreads' hreads] at hparsed
        exact hseen parsed hparsed

end receiving

/-- **Redelivery is invisible**: a body is received as if the messages claimed before, and those that
repeat an earlier one of its own, were not in it; and a run into which redeliveries were inserted
leaves the state of the run without them. -/
theorem redelivery_invisible (service : IngestionService) :
    (∀ (s : State) (rawBody rawBody' : Bytes) (header header' : Option String)
      (payload payload' : Json) (now : Instant) (wall : Json → Instant) (handling : ℕ → Handling),
      isValidSignature rawBody header service.appSecret = .ok true →
      isValidSignature rawBody' header' service.appSecret = .ok true →
      service.loads rawBody = .ok payload → service.loads rawBody' = .ok payload' →
      Succeeds (parseWebhook service.tables wall payload) →
      Without service.tables s.seen payload payload' →
        service.receive rawBody header now wall handling s =
          service.receive rawBody' header' now wall handling s) ∧
    ∀ (s : State) (ds : List (Input × Bool)),
      Along service.step (fun s c => Succeeds (service.answer s c).1) s (originals ds) →
      (∀ pre c post, ds = pre ++ (c, true) :: post → Redelivers service (pre.map Prod.fst) c) →
        run service.step s (ds.map Prod.fst) = run service.step s (originals ds) :=
  ⟨fun _ _ _ _ _ _ _ _ _ _ hvalid hvalid' hloads hloads' hparse hwithout =>
    receive_without hvalid hvalid' hloads hloads' hparse hwithout,
    fun _ _ hreturned hredelivers => (run_redelivered hreturned hredelivers).1⟩

namespace Sample

open Orchestrator.Sample

/-- A message, and the same message with another one. -/
def bodies : List (String × Json) :=
  [("one", webhook [textMessage "wamid.1" "15551230000"]),
    ("both", webhook [textMessage "wamid.1" "15551230000", textMessage "wamid.2" "15551230000"]),
    ("two", webhook [textMessage "wamid.2" "15551230000"])]

/-- The first body, a redelivery of it, and the body that repeats its message. -/
def redelivered : List (Input × Bool) :=
  [(received "one" start, false), (received "one" (start + 60), true),
    (received "both" (start + 80), false)]

/-- The first message was claimed. -/
def claimed : State := { State.initial with seen := {"wamid.1"} }

theorem answer_one (s : State) : (service bodies).answer s (received "one" start) =
    (service bodies).acceptAll (fun _ => handling) start 0
      [parsedText "wamid.1" "15551230000"] s :=
  answer_received (P := webhook [textMessage "wamid.1" "15551230000"])
    (R := ⟨[parsedText "wamid.1" "15551230000"], []⟩) rfl rfl rfl s

theorem answer_both (s : State) : (service bodies).answer s (received "both" (start + 80)) =
    (service bodies).acceptAll (fun _ => handling) (start + 80) 0
      [parsedText "wamid.1" "15551230000", parsedText "wamid.2" "15551230000"] s :=
  answer_received (P := webhook [textMessage "wamid.1" "15551230000",
      textMessage "wamid.2" "15551230000"])
    (R := ⟨[parsedText "wamid.1" "15551230000", parsedText "wamid.2" "15551230000"], []⟩)
    rfl rfl rfl s

theorem reads_one (now : Instant) : ∃ messages,
    Reads (service bodies) (received "one" now) messages ∧
      messages.map (·.whatsappId) = ["wamid.1"] :=
  ⟨[parsedText "wamid.1" "15551230000"], ⟨_, _, _, _, _, rfl,
    messagesOf_signed (R := ⟨[parsedText "wamid.1" "15551230000"], []⟩) rfl rfl rfl⟩, rfl⟩

theorem redelivers_one : Redelivers (service bodies) [received "one" start]
    (received "one" (start + 60)) := by
  obtain ⟨messages, hreads, hids⟩ := reads_one (start + 60)
  obtain ⟨before, hbefore, hids'⟩ := reads_one start
  refine ⟨messages, hreads, fun parsed hparsed => ?_⟩
  have hid : parsed.whatsappId ∈ messages.map (·.whatsappId) := List.mem_map_of_mem hparsed
  rw [hids, ← hids'] at hid
  exact ⟨_, List.mem_singleton_self _, before, hbefore, List.mem_map.mp hid⟩

end Sample

open Sample Orchestrator.Sample in
/-- A body that repeats a message, and a run with a redelivery. -/
theorem redelivery_invisible_sample :
    (service bodies).receive (utf8 "both") (signed "both") (start + 60) (fun _ => start)
        (fun _ => handling) claimed =
      (service bodies).receive (utf8 "two") (signed "two") (start + 60) (fun _ => start)
        (fun _ => handling) claimed ∧
    run (service bodies).step State.initial (redelivered.map Prod.fst) =
      run (service bodies).step State.initial (originals redelivered) := by
  obtain ⟨hreceive, hrun⟩ := redelivery_invisible (service bodies)
  constructor
  · exact hreceive claimed (utf8 "both") (utf8 "two") (signed "both") (signed "two") _ _
      (start + 60) (fun _ => start) (fun _ => handling) (isValidSignature_signed "both")
      (isValidSignature_signed "two") rfl rfl ⟨_, rfl⟩ ⟨_, rfl, rfl⟩
  · refine hrun State.initial redelivered ⟨⟨1, ?_⟩, ⟨1, ?_⟩, trivial⟩ fun pre c post h => ?_
    · rw [answer_one]
      decide +kernel
    · rw [answer_both, IngestionService.step, answer_one]
      decide +kernel
    · rcases pre with _ | ⟨d, _ | ⟨d', _ | ⟨d'', pre⟩⟩⟩
      · cases h
      · cases h
        exact redelivers_one
      · cases h
      · simp [redelivered] at h

end WappPlanner.Ingestion
