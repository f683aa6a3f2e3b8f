import WappPlanner.Ingestion.Steps
import WappPlanner.Lib.Runs

/-! # One party per request

A registered sender is kept under the id of its client and any other under its own number, in one
space of keys: the buckets, and the two tables that are written at every message and read when a
bucket closes. So a request is of one party, and flagged as that party, as long as no message arrives
under a key whose open bucket holds messages of another party (`one_party_run`): a stranger whose
number is the id of a client, or a client with the id of another. -/

namespace WappPlanner.Ingestion

open WappPlanner.Aggregation WappPlanner.Domain.Models WappPlanner.Errors
open WappPlanner.Ingestion.Parser WappPlanner.Lib WappPlanner.Lib.Runs WappPlanner.Orchestrator
open WappPlanner.Py.Text WappPlanner.Py.Values WappPlanner.Workflow.Enums

/-- A party: a client of the registry, or one unregistered number. -/
inductive Party
  | client (client : Client)
  | stranger (number : String)

namespace Party

/-- The key a party is kept under. -/
def clientId : Party → String
  | .client c => c.id
  | .stranger number => number

def isKnown : Party → Bool
  | .client _ => true
  | .stranger _ => false

end Party

/-- The party of a sender. -/
def ClientRegistry.party (registry : ClientRegistry) (sender : String) : Party :=
  match registry.byPhone.get sender with
  | some client => .client client
  | none => .stranger sender

/-- The sender of an accepted message. -/
def State.senderOf (s : State) (id : String) : Option String :=
  (s.accepted.find? fun parsed => parsed.whatsappId = id).map (·.sender)

section parties

variable (service : IngestionService)

/-- All messages were sent by one party. -/
def FromParty (s : State) (messages : List Message) (p : Party) : Prop :=
  ∀ m ∈ messages, ∃ sender, s.senderOf m.id = some sender ∧ service.registry.party sender = p

/-- **A request of one party**, flagged exactly when the party is not registered. -/
def OneParty (s : State) (b : Batch) : Prop :=
  ∃ p, FromParty service s b.aggregated.messages p ∧
    (unknownClientFlag ∈ b.extraFlags ↔ p.isKnown = false)

/-- The open bucket under the sender's key, if there is one, holds messages of the sender's party, or
is closed by this message and holds messages of a party as registered as the sender. -/
def Apart (now : Instant) (s : State) (parsed : ParsedMessage) : Prop :=
  ∀ bucket, s.aggregator.openBuckets.get (service.registry.resolve parsed.sender).1 = some bucket →
    ∃ p, FromParty service s bucket.messages p ∧
      p.isKnown = (service.registry.party parsed.sender).isKnown ∧
      (service.windows.active bucket now → p = service.registry.party parsed.sender)

/-- Messages of the party whose key it is, which the table of known clients agrees with. -/
def Owned (s : State) (key : String) (messages : List Message) : Prop :=
  messages ≠ [] ∧ ∃ p : Party, p.clientId = key ∧ s.known.get key = some p.isKnown ∧
    FromParty service s messages p

/-- What every call keeps. -/
structure PartyInv (s : State) : Prop where
  seen : ∀ parsed ∈ s.accepted, parsed.whatsappId ∈ s.seen
  keyed : s.aggregator.Keyed
  owned : ∀ key bucket, s.aggregator.openBuckets.get key = some bucket →
    Owned service s key bucket.messages
  handed : ∀ b ∈ s.handed, OneParty service s b

variable {service} {s s' : State}

/-! ### Senders -/

variable (service) in
theorem resolve_party (sender : String) :
    (service.registry.resolve sender).1 = (service.registry.party sender).clientId ∧
      (service.registry.resolve sender).2.2 = (service.registry.party sender).isKnown := by
  unfold ClientRegistry.resolve ClientRegistry.party
  cases hget : service.registry.byPhone.get sender with
  | none => exact ⟨rfl, rfl⟩
  | some client => exact ⟨rfl, rfl⟩

theorem FromParty.mono {messages : List Message} {p : Party} {l : List ParsedMessage}
    (h : FromParty service s messages p) (haccepted : s'.accepted = s.accepted ++ l) :
    FromParty service s' messages p := by
  intro m hm
  obtain ⟨sender, hsender, hp⟩ := h m hm
  refine ⟨sender, ?_, hp⟩
  obtain ⟨parsed, hfind, rfl⟩ := Option.map_eq_some_iff.mp hsender
  unfold State.senderOf
  rw [haccepted, List.find?_append, hfind]
  rfl

theorem senderOf_new {parsed : ParsedMessage} (hseen : ∀ p ∈ s.accepted, p.whatsappId ∈ s.seen)
    (hnew : parsed.whatsappId ∉ s.seen) (haccepted : s'.accepted = s.accepted ++ [parsed]) :
    s'.senderOf parsed.whatsappId = some parsed.sender := by
  have hnone : (s.accepted.find? fun p => p.whatsappId = parsed.whatsappId) = none := by
    refine List.find?_eq_none.mpr fun p hp heq => hnew ?_
    rw [← of_decide_eq_true heq]
    exact hseen p hp
  unfold State.senderOf
  rw [haccepted, List.find?_append, hnone]
  simp

theorem FromParty.eq {messages : List Message} {p q : Party} (hne : messages ≠ [])
    (hp : FromParty service s messages p) (hq : FromParty service s messages q) : p = q := by
  obtain ⟨m, hm⟩ := List.exists_mem_of_ne_nil _ hne
  obtain ⟨sender, hsender, rfl⟩ := hp m hm
  obtain ⟨sender', hsender', rfl⟩ := hq m hm
  rw [Option.some.inj (hsender.symm.trans hsender')]

theorem Owned.congr {key : String} {messages : List Message} {l : List ParsedMessage}
    (h : Owned service s key messages) (hknown : s'.known.get key = s.known.get key)
    (haccepted : s'.accepted = s.accepted ++ l) : Owned service s' key messages := by
  obtain ⟨hne, p, hkey, hp, hfrom⟩ := h
  exact ⟨hne, p, hkey, hknown.trans hp, hfrom.mono haccepted⟩

theorem OneParty.mono {b : Batch} {l : List ParsedMessage} (h : OneParty service s b)
    (haccepted : s'.accepted = s.accepted ++ l) : OneParty service s' b := by
  obtain ⟨p, hfrom, hflag⟩ := h
  exact ⟨p, hfrom.mono haccepted, hflag⟩

/-! ### Closed buckets -/

section process

variable {handling : Handling} {aggregated : AggregatedRequest} {now : Instant}

theorem Owned.oneParty (h : Owned service s aggregated.clientId aggregated.messages)
    (media : String → Option Providers.Base.DownloadedMedia) :
    OneParty service s (IngestionService.batchOf s aggregated media now) := by
  obtain ⟨-, p, -, hknown, hfrom⟩ := h
  refine ⟨p, hfrom, ?_⟩
  unfold IngestionService.batchOf
  dsimp only
  rw [hknown]
  cases p with
  | client client => simp [Party.isKnown]
  | stranger number => simp [Party.isKnown]

theorem PartyInv.process (h : PartyInv service s)
    (hown : Owned service s aggregated.clientId aggregated.messages) :
    PartyInv service (service.process handling aggregated now s).2 := by
  rcases service.process_cases handling aggregated now s with ⟨exc, -, hp⟩ | ⟨media, -, hp⟩
  · rw [hp]
    exact h
  · rw [hp]
    refine ⟨h.seen, h.keyed, h.owned, fun b hb => ?_⟩
    rcases List.mem_append.mp hb with hb | hb
    · exact h.handed b hb
    · rw [List.mem_singleton.mp hb]
      exact hown.oneParty media

end process

/-! ### Accepted messages -/

section accept

variable {parsed : ParsedMessage} {handling : Handling} {now : Instant} {message : Message}

theorem PartyInv.resolved (h : PartyInv service s)
    (hapart : Apart service now s parsed) :
    PartyInv service ((s.claim parsed).resolved service.registry parsed) := by
  have haccepted : ((s.claim parsed).resolved service.registry parsed).accepted =
      s.accepted ++ [parsed] := rfl
  obtain ⟨hkey, hflag⟩ := resolve_party service parsed.sender
  refine ⟨fun p hp => ?_, h.keyed, fun key bucket hb => ?_,
    fun b hb => (h.handed b hb).mono haccepted⟩
  · rcases List.mem_append.mp hp with hp | hp
    · exact Finset.mem_insert_of_mem (h.seen p hp)
    · rw [List.mem_singleton.mp hp]
      exact Finset.mem_insert_self _ _
  · have hknown : ((s.claim parsed).resolved service.registry parsed).known.get key =
        if key = (service.registry.party parsed.sender).clientId then
          some (service.registry.party parsed.sender).isKnown
        else s.known.get key := by
      rw [← hkey, ← hflag]
      exact Dict.get_set
    obtain ⟨hne, p, hp, hpk, hfrom⟩ := h.owned key bucket hb
    refine ⟨hne, p, hp, ?_, hfrom.mono haccepted⟩
    rw [hknown]
    split_ifs with hsame
    · subst hsame
      obtain ⟨q, hq, hqk, -⟩ := hapart bucket (hkey ▸ hb)
      rw [← hqk, hfrom.eq hne hq]
    · exact hpk

theorem Apart.resolved (h : Apart service now s parsed) :
    Apart service now ((s.claim parsed).resolved service.registry parsed) parsed := by
  intro bucket hb
  obtain ⟨p, hfrom, hp⟩ := h bucket hb
  exact ⟨p, hfrom.mono rfl, hp⟩

/-- **A message goes into a bucket of its party.** -/
theorem Apart.joined (hapart : Apart service now s parsed)
    (hsender : s.senderOf message.id = some parsed.sender) {bucket : OpenBucket}
    (hb : bucket = s.aggregator.joined service.windows
      (service.registry.resolve parsed.sender).1 message now) :
    FromParty service s bucket.messages (service.registry.party parsed.sender) ∧
      bucket.messages ≠ [] := by
  have hopening : ∀ m ∈ (s.aggregator.opening service.windows
      (service.registry.resolve parsed.sender).1 message now).messages, m.id = message.id := by
    intro m hm
    rw [List.mem_singleton.mp hm]
  have hnew : ∀ m : Message, m.id = message.id → ∃ sender, s.senderOf m.id = some sender ∧
      service.registry.party sender = service.registry.party parsed.sender :=
    fun m hm => ⟨parsed.sender, hm ▸ hsender, rfl⟩
  unfold Aggregator.joined at hb
  split at hb
  · subst hb
    exact ⟨fun m hm => hnew m (hopening m hm), by simp [Aggregator.opening, OpenBucket.append]⟩
  · rename_i open_ hopen
    split_ifs at hb with hactive
    · subst hb
      obtain ⟨p, hfrom, -, hp⟩ := hapart open_ hopen
      rw [hp hactive] at hfrom
      refine ⟨fun m hm => ?_, by simp [OpenBucket.append]⟩
      rcases List.mem_append.mp hm with hm | hm
      · exact hfrom m hm
      · rw [List.mem_singleton.mp hm]
        exact hnew _ rfl
    · subst hb
      exact ⟨fun m hm => hnew m (hopening m hm), by simp [Aggregator.opening, OpenBucket.append]⟩

theorem PartyInv.addMessage (h : PartyInv service s) (hapart : Apart service now s parsed)
    (hsender : s.senderOf message.id = some parsed.sender)
    (hknown : s.known.get (service.registry.resolve parsed.sender).1 =
      some (service.registry.party parsed.sender).isKnown) :
    PartyInv service (service.addMessage handling (service.registry.resolve parsed.sender).1
      message now s).2 := by
  obtain ⟨hkey, -⟩ := resolve_party service parsed.sender
  have hinv : PartyInv service (s.withAggregator (s.aggregator.add service.windows
      (service.registry.resolve parsed.sender).1 message now).2) := by
    refine ⟨h.seen, h.keyed.add, fun key bucket hb => ?_, h.handed⟩
    have hb : (s.aggregator.add service.windows (service.registry.resolve parsed.sender).1
      message now).2.openBuckets.get key = some bucket := hb
    rw [Aggregator.get_add] at hb
    split_ifs at hb with hsame
    · obtain ⟨hfrom, hne⟩ := hapart.joined hsender (Option.some.inj hb).symm
      refine ⟨hne, service.registry.party parsed.sender, ?_, ?_, hfrom⟩
      · rw [hsame, hkey]
      · rw [hsame]
        exact hknown
    · exact h.owned key bucket hb
  rcases service.addMessage_cases handling (service.registry.resolve parsed.sender).1 message now s
    with hp | ⟨bucket, hdue, hp⟩
  · rw [hp]
    exact hinv
  · rw [hp]
    have hopen := (Option.filter_eq_some_iff.mp hdue).1
    have hown := h.owned _ _ hopen
    rw [← h.keyed.clientId hopen] at hown
    exact hinv.process hown

/-- **An acceptance keeps the parties apart.** -/
theorem PartyInv.accept (h : PartyInv service s) (hnew : parsed.whatsappId ∉ s.seen)
    (hapart : Apart service now s parsed) :
    PartyInv service (service.accept handling parsed now s).2 := by
  have hinv := h.resolved hapart
  have hapart' := hapart.resolved
  have hsender : ((s.claim parsed).resolved service.registry parsed).senderOf parsed.whatsappId =
      some parsed.sender := senderOf_new h.seen hnew rfl
  have hknown : ((s.claim parsed).resolved service.registry parsed).known.get
      (service.registry.resolve parsed.sender).1 =
        some (service.registry.party parsed.sender).isKnown := by
    rw [← (resolve_party service parsed.sender).2]
    exact Dict.get_set.trans (if_pos rfl)
  unfold IngestionService.accept
  generalize (s.claim parsed).resolved service.registry parsed = s₁ at hinv hapart' hsender hknown ⊢
  obtain ⟨world, downloads, hdownload⟩ :=
    IngestionService.download_eq service handling s₁ parsed
  have hdownloaded : PartyInv service (service.download handling parsed s₁).2 := by
    rw [hdownload]
    exact ⟨hinv.seen, hinv.keyed, hinv.owned, hinv.handed⟩
  dsimp only
  split
  · exact hdownloaded
  · rename_i rawRef message hmessage
    obtain ⟨hid, -⟩ := messageOf_eq hmessage
    refine hdownloaded.addMessage ?_ ?_ ?_
    · rw [hdownload]
      exact hapart'
    · rw [hdownload, hid]
      exact hsender
    · rw [hdownload]
      exact hknown

end accept

/-! ### Calls -/

section calls

variable {now : Instant} {handling : ℕ → Handling}

theorem PartyInv.processAll {n : ℕ} {due : List AggregatedRequest} (h : PartyInv service s)
    (hown : ∀ aggregated ∈ due, Owned service s aggregated.clientId aggregated.messages) :
    PartyInv service (service.processAll handling now n due s).2 := by
  refine service.processAll_inv (Q := fun aggregated s =>
    Owned service s aggregated.clientId aggregated.messages) ?_ ?_ h hown
  · intro handling aggregated s hs hown
    exact hs.process hown
  · intro handling aggregated other s hown
    refine hown.congr (l := []) ?_ ?_
    · rw [IngestionService.process_known]
    · rw [IngestionService.process_accepted, List.append_nil]

theorem PartyInv.flushDue (h : PartyInv service s) :
    PartyInv service (service.flushDue now handling s).2 := by
  unfold IngestionService.flushDue
  refine PartyInv.processAll ⟨h.seen, h.keyed.flushDue, fun key bucket hb => ?_, h.handed⟩
    fun aggregated ha => ?_
  · exact h.owned key bucket (Aggregator.open_of_flushDue hb)
  · obtain ⟨key, bucket, hopen, rfl⟩ := Aggregator.open_of_mem_flushDue ha
    have hown := h.owned key bucket hopen
    rw [← h.keyed.clientId hopen] at hown
    exact hown

theorem PartyInv.step {input : Input} (h : PartyInv service s)
    (hapart : service.AtAccept (fun now s _ parsed => Apart service now s parsed) s input) :
    PartyInv service (service.step s input) := by
  cases input with
  | flushDue now handling => exact h.flushDue
  | receive rawBody header now wall handling =>
    unfold IngestionService.step IngestionService.answer IngestionService.receive
    unfold IngestionService.AtAccept at hapart
    dsimp only at hapart ⊢
    cases hmessages : service.messagesOf rawBody header wall with
    | error exc => exact h
    | ok messages =>
      rw [hmessages] at hapart
      exact IngestionService.acceptAll_inv (fun _ _ _ hs hnew hp => hs.accept hnew hp) h hapart

theorem PartyInv.initial : PartyInv service State.initial where
  seen _ h := by cases h
  keyed _ h := by cases h
  owned _ _ h := by cases h
  handed _ h := by cases h

end calls

/-- **Requests never mix parties**, in a run where no message arrives while the open bucket under its
key holds messages of another party. -/
theorem one_party_run (service : IngestionService) (cs : List Input)
    (h : Along service.step (service.AtAccept fun now s _ parsed => Apart service now s parsed)
      State.initial cs) :
    ∀ b ∈ (run service.step State.initial cs).handed,
      OneParty service (run service.step State.initial cs) b :=
  (run_inv (fun _ _ hs hp => hs.step hp) PartyInv.initial h).handed

end parties

/-! ### A stranger whose number is the id of a client -/

namespace Sample

open Orchestrator.Sample

/-- A message of Ana's, and one of a stranger. -/
def pair : Json :=
  webhook [textMessage "wamid.1" "15551230000", textMessage "wamid.2" "15550009999"]

def parsedPair : List ParsedMessage :=
  [parsedText "wamid.1" "15551230000", parsedText "wamid.2" "15550009999"]

/-- A service that knows Ana by the id. -/
def knowing (id : String) : IngestionService :=
  { service [("pair", pair)] with registry := .ofClients [⟨id, "Ana", ["15551230000"]⟩] }

/-- The classifier finds nothing. -/
def quiet : Handling := { handling with env := external (classifierText .none) }

/-- Both messages, and a tick after their windows. -/
def exchange : List Input :=
  [received "pair" start, .flushDue (start + seconds 600) fun _ => quiet]

theorem messagesOf_pair (id : String) :
    (knowing id).messagesOf (utf8 "pair") (signed "pair") (fun _ => start) = .ok parsedPair :=
  messagesOf_signed (P := pair) (R := ⟨parsedPair, []⟩) rfl rfl rfl

/-- What the exchange leaves. -/
def exchanged (id : String) : State :=
  ((knowing id).flushDue (start + seconds 600) (fun _ => quiet)
    ((knowing id).acceptAll (fun _ => handling) start 0 parsedPair State.initial).2).2

theorem run_exchange (id : String) :
    run (knowing id).step State.initial exchange = exchanged id := by
  have hpair : (knowing id).answer State.initial (received "pair" start) =
      (knowing id).acceptAll (fun _ => handling) start 0 parsedPair State.initial :=
    answer_received (P := pair) (R := ⟨parsedPair, []⟩) rfl rfl rfl State.initial
  unfold exchange exchanged
  rw [run_cons, run_cons, run_nil]
  unfold IngestionService.step
  rw [hpair]
  rfl

end Sample

open Sample Orchestrator.Sample in
/-- Ana's id is the number of the stranger: both end up in one request. -/
theorem parties_mixed : ¬∀ b ∈ (run (knowing "15550009999").step State.initial exchange).handed,
    OneParty (knowing "15550009999")
      (run (knowing "15550009999").step State.initial exchange) b := by
  rw [run_exchange]
  intro h
  -- one evaluation of the exchange
  obtain ⟨hids, hana, hstranger⟩ : ((exchanged "15550009999").handed.map fun b =>
      b.aggregated.messages.map (·.id)) = [["wamid.1", "wamid.2"]] ∧
      (exchanged "15550009999").senderOf "wamid.1" = some "15551230000" ∧
      (exchanged "15550009999").senderOf "wamid.2" = some "15550009999" := by decide +kernel
  obtain ⟨b, hhanded, hb⟩ := List.map_eq_singleton_iff.mp hids
  obtain ⟨m, rest, hmessages, hm, hrest⟩ := List.map_eq_cons_iff.mp hb
  obtain ⟨m', hrest, hm'⟩ := List.map_eq_singleton_iff.mp hrest
  obtain ⟨p, hfrom, -⟩ := h b (by rw [hhanded]; exact List.mem_singleton_self b)
  rw [hmessages, hrest] at hfrom
  obtain ⟨sender, hsender, hp⟩ := hfrom m (by simp)
  obtain ⟨sender', hsender', hp'⟩ := hfrom m' (by simp)
  rw [hm, hana] at hsender
  rw [hm', hstranger] at hsender'
  rw [← hp', ← Option.some.inj hsender, ← Option.some.inj hsender'] at hp
  cases hp

open Sample Orchestrator.Sample in
/-- Ana and the stranger under different keys. -/
theorem one_party_run_exchange :
    (run (knowing "ana").step State.initial exchange).handed.length = 2 ∧
      ∀ b ∈ (run (knowing "ana").step State.initial exchange).handed,
        OneParty (knowing "ana") (run (knowing "ana").step State.initial exchange) b := by
  refine ⟨by rw [run_exchange]; decide +kernel,
    one_party_run (knowing "ana") exchange ⟨?_, trivial, trivial⟩⟩
  unfold received IngestionService.AtAccept
  dsimp only
  rw [messagesOf_pair]
  have hfree : (((knowing "ana").accept handling (parsedText "wamid.1" "15551230000") start
      State.initial).2.aggregator.openBuckets.get
        ((knowing "ana").registry.resolve "15550009999").1).isNone := by
    decide +kernel
  refine ⟨fun bucket hb => ?_, ?_⟩
  · cases hb
  · rcases haccept : (knowing "ana").accept handling (parsedText "wamid.1" "15551230000") start
        State.initial with ⟨_ | _, s₁⟩
    · trivial
    · rw [haccept] at hfree
      dsimp only
      rw [IngestionService.AtAcceptAll]
      split_ifs
      · trivial
      · refine ⟨fun bucket hb => ?_, ?_⟩
        · have hnone : s₁.aggregator.openBuckets.get
              ((knowing "ana").registry.resolve "15550009999").1 = none :=
            Option.isNone_iff_eq_none.mp hfree
          cases hnone.symm.trans hb
        · split <;> trivial

end WappPlanner.Ingestion
