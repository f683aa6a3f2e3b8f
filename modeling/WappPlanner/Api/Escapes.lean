import WappPlanner.Api.Answers
import WappPlanner.Config.Settings
import WappPlanner.Hitl.Letters
import WappPlanner.Ingestion.Malformed

/-! # What reaches the server

The program defines a dozen exceptions, and its handlers translate five of them into a status. The
others are not handled anywhere, and need not be: in an application built from settings that passed
validation, none is ever raised out of a handler or a tick but the two by which a completion is found
unusable, and the one of a prompt version that the settings name and no table has
(`only_stray_escape`). Everything else that the server answers with 500 comes from the language, the
schemas or a call that leaves the program (`Stray`). -/

namespace WappPlanner.Api

open WappPlanner.Aggregation WappPlanner.Bootstrap WappPlanner.Config
open WappPlanner.Documents.Generation WappPlanner.Documents.Layout WappPlanner.Domain.Models
open WappPlanner.Errors WappPlanner.Hitl.Dispatcher WappPlanner.Hitl.Dispatcher.ChannelDispatcher
open WappPlanner.Hitl.Letters WappPlanner.Hitl.Service WappPlanner.Hitl.Tokens
open WappPlanner.Ingestion WappPlanner.Ingestion.Parser WappPlanner.Ingestion.Signature
open WappPlanner.Lib.Fallible WappPlanner.Lib.Programs WappPlanner.Lib.Runs WappPlanner.Nlp.Classification
open WappPlanner.Nlp.Prompts WappPlanner.Orchestrator WappPlanner.Providers.Base
open WappPlanner.Py.Text WappPlanner.Py.Values WappPlanner.Workflow.Enums

/-- Both tables of prompts have the version. -/
def KnownVersion (version : String) : Prop :=
  (classificationPrompts.lookup version).isSome ∧ (generationPrompts.lookup version).isSome

/-- What may reach the server: of the program's own exceptions, those of an unusable completion, and
that of the configured prompt version if it is unknown. -/
def Stray (version : String) : Exn → Prop
  | .generation _ | .classification _ | .external _ => True
  | .unknownPromptVersion unknown => unknown = version ∧ ¬ KnownVersion version
  | exc => BuiltIn exc

variable {version : String}

theorem stray_of_builtIn {exc : Exn} (h : BuiltIn exc) : Stray version exc := by
  cases exc with
  | unknownPromptVersion unknown => exact h.elim
  | _ => trivial

/-- The platform raises no exception of the program. -/
structure Foreign (platform : Platform) : Prop where
  token : ∀ bs, Raises (platform.tokenCodec.modelValidateJson bs) BuiltIn
  body : ∀ bs, Raises (platform.loads bs) BuiltIn
  answer : ∀ text, Raises (platform.decoder.loads text) BuiltIn
  fields : ∀ data, Raises (platform.decoder.validate data) BuiltIn

/-! ### The orchestrator -/

section collaborators

theorem raises_lift {α : Type} (x : Answer α) : Raises x.lift (Stray version) := by
  cases x with
  | ok a => exact raises_ok a
  | error text => exact raises_error trivial

theorem stray_unknown (h : ¬ KnownVersion version) : Stray version (.unknownPromptVersion version) :=
  ⟨rfl, h⟩

theorem raises_classify {classifier : Classifier}
    (hloads : ∀ text, Raises (classifier.decoder.loads text) BuiltIn)
    (hfields : ∀ data, Raises (classifier.decoder.validate data) BuiltIn) (llm : LLM)
    (transcript : String) :
    Raises (classifier.classify llm transcript).1 (Stray classifier.promptVersion) := by
  have hparse : ∀ text, Raises (classifier.parse text) (Stray classifier.promptVersion) := by
    intro text
    unfold Classifier.parse
    split
    · exact raises_error trivial
    · rename_i snippet _
      split
      · exact raises_error trivial
      · rename_i exc _ hexc
        exact raises_error (stray_of_builtIn (hloads snippet exc hexc))
      · rename_i data _
        split
        · exact raises_error trivial
        · rename_i exc _ hexc
          exact raises_error (stray_of_builtIn (hfields data exc hexc))
        · exact raises_ok _
  unfold Classifier.classify classificationSystemPrompt
  cases hprompt : classificationPrompts.lookup classifier.promptVersion with
  | none =>
    refine raises_error (stray_unknown fun h => ?_)
    rw [KnownVersion, hprompt] at h
    cases h.1
  | some prompt =>
    dsimp only
    split
    · exact raises_error trivial
    · exact hparse _

theorem raises_generate (generator : Generator) (llm : LLM) (args : GenerateArgs) :
    Raises (generator.generate llm args).result (Stray generator.promptVersion) := by
  have hprompt : Raises (generationSystemPrompt args.intent generator.promptVersion)
      (Stray generator.promptVersion) := by
    unfold generationSystemPrompt
    cases hprompts : generationPrompts.lookup generator.promptVersion with
    | none =>
      refine raises_error (stray_unknown fun h => ?_)
      rw [KnownVersion, hprompts] at h
      cases h.2
    | some prompts =>
      dsimp only
      split
      · exact raises_error trivial
      · split
        · exact raises_ok _
        · exact raises_error trivial
  unfold Generator.generate
  split
  · rename_i hexc
    exact raises_error (hprompt _ hexc)
  · exact raises_error trivial
  · split
    · rename_i exc huser
      unfold Generator.buildUserPrompt at huser
      split at huser
      · rw [← Except.error.inj huser]
        exact raises_error trivial
      · cases huser
    · intro exc hexc
      rcases Generator.attempts_error hexc with ⟨text, rfl⟩ | ⟨text, rfl⟩ <;> trivial

theorem raises_sendOn {dispatcher : ChannelDispatcher} {notifiers : Notifiers}
    {message : String → OutboundMessage} {cs : List Domain.Enums.Channel}
    (hcs : ∀ c ∈ cs, (dispatcher.targets c).isSome) :
    Raises (dispatcher.sendOn notifiers message cs).result (Stray version) := by
  intro exc hexc
  obtain ⟨text, rfl⟩ := external_of_sendOn hcs hexc
  trivial

end collaborators

/-- The configuration of an orchestrator that raises nothing but what it meets. -/
structure Configured (version : String) (cfg : Config) : Prop where
  classifier : ∀ llm transcript, Raises (cfg.classifier.classify llm transcript).1 (Stray version)
  generator : ∀ llm args, Raises (cfg.generator.generate llm args).result (Stray version)
  notify : ∀ c ∈ channels cfg.notify.notifyChannel, (cfg.notify.dispatcher.targets c).isSome
  deliver : ∀ c ∈ channels cfg.notify.deliverChannel, (cfg.notify.dispatcher.targets c).isSome

section orchestrator

variable {cfg : Config} {env : External} {w : World} {r : Request} {now : Instant}

theorem raises_exceptMap {α β : Type} {x : Except Exn α} {f : α → β}
    (h : Raises x (Stray version)) : Raises (x.map f) (Stray version) := raises_map h

theorem Configured.produce (h : Configured version cfg) (feedback : Option String)
    (previous : Option Json) : Raises (produce cfg env r feedback previous) (Stray version) := by
  unfold Orchestrator.produce
  refine raises_bind (h.generator env.llm _) fun doc => ?_
  split
  · exact raises_error trivial
  · exact raises_bind (raises_lift _) fun pdf => raises_bind (raises_lift _) fun docx =>
      raises_bind (raises_lift _) fun _ => raises_bind (raises_lift _) fun _ => raises_ok _

theorem Configured.deliverDocument (h : Configured version cfg) (r : Request) (n : ℕ)
    (attachments : List Attachment) :
    Raises (cfg.notify.deliverDocument env.send r n attachments now).result (Stray version) := by
  unfold NotificationService.deliverDocument
  split
  · rename_i exc hcompose
    unfold NotificationService.composeDelivery Hitl.Messages.composeDeliveryNotification at hcompose
    split at hcompose
    · rw [← Except.error.inj hcompose]
      exact raises_error trivial
    · cases hcompose
  · exact raises_sendOn h.deliver

theorem Configured.notifyClassification (h : Configured version cfg) (r : Request) (name : String)
    (result : ClassificationResult) :
    Raises (cfg.notify.notifyClassification env.send r name result now).result (Stray version) := by
  rw [notifyClassification_eq]
  exact raises_sendOn h.notify

/-- **An ingest raises nothing but what it meets.** -/
theorem Configured.ingest (h : Configured version cfg) (b : Batch) :
    Raises (outcome cfg w (.ingest b env)).result (Stray version) := by
  have ho := ingest_outcome cfg w b env
  generalize outcome cfg w (.ingest b env) = o at ho ⊢
  cases ho with
  | unclassified exc hexc => exact raises_error (h.classifier _ _ exc hexc)
  | silent => exact raises_ok _
  | told result => exact raises_exceptMap (h.notifyClassification _ _ _)

theorem Configured.follow (h : Configured version cfg) {a : OwnerAction}
    {o : Outcome Op World Exn Request} (ho : FollowOutcome cfg env a r now w o) :
    Raises o.result (Stray version) := by
  cases ho with
  | settled => exact raises_ok _
  | unnamed => exact raises_error trivial
  | corrected => exact raises_exceptMap (h.notifyClassification _ _ _)
  | pipeline hd lookups hlookups o ho =>
    cases ho with
    | failed text => exact raises_error trivial
    | stopped exc w' trace hgen hexc => exact raises_error (h.produce _ _ exc hexc)
    | made p => exact raises_exceptMap (h.deliverDocument _ _ _)

/-- **An action raises nothing else**, but the two refusals. -/
theorem Configured.action (h : Configured version cfg) (a : OwnerAction) {exc : Exn}
    (hexc : (outcome cfg w (.action a now env)).result = .error exc) :
    Stray version exc ∨ exc.isRefusal = true := by
  have ho := action_outcome cfg w a now env
  generalize outcome cfg w (.action a now env) = o at ho hexc
  cases ho with
  | unknown | refused => exact .inr (Except.error.inj hexc ▸ rfl)
  | duplicate => cases hexc
  | accepted r hr hfresh hgate o ho => exact .inl (h.follow ho exc hexc)

end orchestrator

/-! ### The services -/

/-- What may reach the server, or an exception of one of the kinds that the caller translates. -/
def Refuses (version : String) (kinds : List (String → Exn)) (exc : Exn) : Prop :=
  Stray version exc ∨ ∃ kind ∈ kinds, ∃ text, exc = kind text

theorem raises_refusal {α : Type} {kinds : List (String → Exn)} {kind : String → Exn}
    (h : kind ∈ kinds) (text : String) :
    Raises (.error (kind text) : Except Exn α) (Refuses version kinds) :=
  raises_error (.inr ⟨kind, h, text, rfl⟩)

theorem refuses_of_stray {α : Type} {kinds : List (String → Exn)} {x : Except Exn α}
    (h : Raises x (Stray version)) : Raises x (Refuses version kinds) :=
  fun exc hexc => .inl (h exc hexc)

theorem refuses_of_builtIn {α : Type} {kinds : List (String → Exn)} {x : Except Exn α}
    (h : Raises x BuiltIn) : Raises x (Refuses version kinds) :=
  fun exc hexc => .inl (stray_of_builtIn (h exc hexc))

section services

variable {service : IngestionService}

theorem raises_compareDigest (a b : String) : Raises (compareDigest a b) (Stray version) := by
  unfold compareDigest
  split
  · exact raises_ok _
  · exact raises_error trivial

theorem raises_mediaFor (handling : Handling) (w : World) (messages : List Message) :
    Raises (IngestionService.mediaFor handling w messages) (Stray version) := by
  have hget : ∀ key, Raises (IngestionService.storageGet handling w key) (Stray version) := by
    intro key
    unfold IngestionService.storageGet
    split
    · exact raises_error trivial
    · split
      · exact raises_ok _
      · exact raises_error trivial
  have hmedia : ∀ message, Raises (IngestionService.mediaOf handling w message) (Stray version) := by
    intro message
    unfold IngestionService.mediaOf
    split
    · exact raises_bind (hget _) fun _ => raises_ok _
    · exact raises_ok _
  exact raises_bind (raises_mapM hmedia messages) fun _ => raises_ok _

theorem raises_process (h : Configured version service.orchestrator) (handling : Handling)
    (aggregated : AggregatedRequest) (now : Instant) (s : State) :
    Raises (service.process handling aggregated now s).1 (Stray version) := by
  rcases service.process_cases handling aggregated now s with ⟨exc, hexc, hp⟩ | ⟨media, -, hp⟩
  · rw [hp]
    exact raises_error (raises_mediaFor _ _ _ exc hexc)
  · rw [hp]
    exact raises_exceptMap (h.ingest _)

/-- **A tick raises nothing but what it meets.** -/
theorem raises_processAll (h : Configured version service.orchestrator) {handling : ℕ → Handling}
    {now : Instant} : ∀ {n : ℕ} {due : List AggregatedRequest} {s : State},
      Raises (service.processAll handling now n due s).1 (Stray version)
  | n, [], _ => raises_ok n
  | n, aggregated :: rest, s => by
    have hone := raises_process h (handling n) aggregated now s
    rw [IngestionService.processAll]
    rcases hp : service.process (handling n) aggregated now s with ⟨exc | _, s'⟩
    · rw [hp] at hone
      exact raises_error (hone exc rfl)
    · exact raises_processAll h

theorem raises_accept (h : Configured version service.orchestrator) (handling : Handling)
    (parsed : ParsedMessage) (now : Instant) (s : State) :
    Raises (service.accept handling parsed now s).1 (Stray version) := by
  unfold IngestionService.accept
  dsimp only
  generalize service.download handling parsed
    ((s.claim parsed).resolved service.registry parsed) = downloaded
  obtain ⟨rawRef, t⟩ := downloaded
  dsimp only
  split
  · rename_i exc hexc
    unfold messageOf at hexc
    split at hexc
    · cases hexc
    · rw [← Except.error.inj hexc]
      exact raises_error trivial
  · rename_i message _
    rcases service.addMessage_cases handling (service.registry.resolve parsed.sender).1 message now t
      with hp | ⟨bucket, -, hp⟩
    · rw [hp]
      exact raises_ok _
    · rw [hp]
      exact raises_process h _ _ _ _

theorem raises_acceptAll (h : Configured version service.orchestrator) {handling : ℕ → Handling}
    {now : Instant} : ∀ {n : ℕ} {messages : List ParsedMessage} {s : State},
      Raises (service.acceptAll handling now n messages s).1 (Stray version)
  | n, [], _ => raises_ok n
  | n, parsed :: rest, s => by
    have hone := raises_accept h (handling n) parsed now s
    rw [IngestionService.acceptAll]
    split_ifs
    · exact raises_acceptAll h
    · rcases hp : service.accept (handling n) parsed now s with ⟨exc | _, s'⟩
      · rw [hp] at hone
        exact raises_error (hone exc rfl)
      · exact raises_acceptAll h

/-- **Receiving a body** raises what it meets, or refuses it. -/
theorem raises_receive (h : Configured version service.orchestrator)
    (hloads : ∀ bs, Raises (service.loads bs) BuiltIn) (body : Bytes) (signature : Option String)
    (now : Instant) (wall : Json → Instant) (handling : ℕ → Handling) (s : State) :
    Raises (service.receive body signature now wall handling s).1
      (Refuses version [.signature, .invalidPayload]) := by
  have hvalid : Raises (isValidSignature body signature service.appSecret)
      (Refuses version [.signature, .invalidPayload]) := by
    unfold isValidSignature
    split
    · exact raises_ok _
    · split_ifs
      · exact raises_ok _
      · exact refuses_of_stray (raises_compareDigest _ _)
  have hpayload : Raises (service.payloadOf body) (Refuses version [.signature, .invalidPayload]) := by
    unfold IngestionService.payloadOf
    split
    · exact raises_refusal (by simp) _
    · exact refuses_of_builtIn (hloads body)
  have hmessages : Raises (service.messagesOf body signature wall)
      (Refuses version [.signature, .invalidPayload]) := by
    unfold IngestionService.messagesOf
    refine raises_bind hvalid fun valid => ?_
    split_ifs
    · exact raises_bind hpayload fun payload =>
        raises_bind (refuses_of_builtIn (builtIn_parseWebhook payload)) fun _ => raises_ok _
    · exact raises_refusal (by simp) _
  unfold IngestionService.receive
  split
  · rename_i exc hexc
    exact raises_error (hmessages exc hexc)
  · exact refuses_of_stray (raises_acceptAll h)

theorem raises_resolveAction {service : NotificationService}
    (htoken : ∀ bs, Raises (service.signer.codec.modelValidateJson bs) BuiltIn) (token : String)
    (now : Instant) (feedback : Option String) :
    Raises (service.resolveAction token now feedback)
      (Refuses version [.invalidToken, .expiredToken]) := by
  have hdecode : ∀ cs, Raises (urlsafeB64decode cs) (Stray version) := by
    intro cs
    unfold urlsafeB64decode
    split_ifs
    · split
      · exact raises_ok _
      · exact raises_error trivial
      · exact raises_error trivial
    · exact raises_error trivial
  have hverify : Raises (service.signer.verify token now)
      (Refuses version [.invalidToken, .expiredToken]) := by
    unfold TokenSigner.verify
    split
    · split
      · rename_i exc hexc
        exact raises_error (.inl (raises_compareDigest _ _ exc hexc))
      · exact raises_refusal (by simp) _
      · refine raises_bind (refuses_of_stray (hdecode _)) fun bs =>
          raises_bind (refuses_of_builtIn (htoken bs)) fun t => ?_
        split_ifs
        · exact raises_refusal (by simp) _
        · exact raises_ok _
    · exact raises_refusal (by simp) _
  exact raises_bind hverify fun t => raises_ok _

theorem raises_verifySubscription (mode token : Option String) (challenge : String) :
    Raises (service.verifySubscription mode token challenge)
      (Refuses version [.webhookVerification]) := by
  unfold IngestionService.verifySubscription Signature.verifySubscription
  dsimp only
  split
  · split
    · exact raises_refusal (by simp) _
    · split
      · rename_i exc hexc
        exact raises_error (.inl (raises_compareDigest _ _ exc hexc))
      · exact raises_ok _
      · exact raises_refusal (by simp) _
  · exact raises_refusal (by simp) _

end services

/-! ### The application -/

section handlers

variable {ctx : AppContext} {s : State} {exc : Exn}

theorem verify_escapes {mode token : Option String} {challenge : String}
    (h : verify ctx mode token challenge = .error (.escaped exc)) : Stray version exc := by
  unfold verify at h
  split at h
  · cases h
  · cases h
  · rename_i hother hexc
    cases h
    rcases raises_verifySubscription _ _ _ _ hexc with hstray | ⟨kind, hkind, text, rfl⟩
    · exact hstray
    · obtain rfl := List.mem_singleton.mp hkind
      exact absurd rfl (hother text)

theorem inbound_escapes (hcfg : Configured version ctx.ingestion.orchestrator)
    (hloads : ∀ bs, Raises (ctx.ingestion.loads bs) BuiltIn) {body : Bytes}
    {signature : Option String} {now : Instant} {wall : Json → Instant} {handling : ℕ → Handling}
    (h : (inbound ctx body signature now wall handling s).1 = .error (.escaped exc)) :
    Stray version exc := by
  have hraises := raises_receive hcfg hloads body signature now wall handling s
  unfold inbound at h
  split at h
  · cases h
  · cases h
  · cases h
  · rename_i hsignature hpayload hexc
    cases h
    rw [hexc] at hraises
    rcases hraises _ rfl with hstray | ⟨kind, hkind, text, rfl⟩
    · exact hstray
    · rcases List.mem_pair.mp hkind with rfl | rfl
      · exact absurd rfl (hsignature text)
      · exact absurd rfl (hpayload text)

theorem hitlAction_escapes (hcfg : Configured version ctx.orchestrator)
    (htoken : ∀ bs, Raises (ctx.notifications.signer.codec.modelValidateJson bs) BuiltIn)
    {token : String} {feedback : Option String} {resolvedAt appliedAt : Instant} {env : External}
    (h : (hitlAction ctx token feedback resolvedAt appliedAt env s).1 = .error (.escaped exc)) :
    Stray version exc := by
  have hraises : Raises _ (Refuses version _) :=
    raises_resolveAction htoken token resolvedAt feedback
  unfold hitlAction at h
  split at h
  · unfold applyAction at h
    dsimp only at h
    split at h
    · cases h
    · cases h
    · cases h
    · rename_i hunknown hillegal hexc
      cases h
      rcases hcfg.action _ hexc with hstray | hrefusal
      · exact hstray
      · cases exc with
        | unknownRequest rid => exact absurd rfl (hunknown rid)
        | illegalTransition state trigger => exact absurd rfl (hillegal state trigger)
        | _ => cases hrefusal
  · cases h
  · cases h
  · rename_i hinvalid hexpired hexc
    cases h
    rcases hraises _ hexc with hstray | ⟨kind, hkind, text, rfl⟩
    · exact hstray
    · rcases List.mem_pair.mp hkind with rfl | rfl
      · exact absurd rfl (hinvalid text)
      · exact absurd rfl (hexpired text)

end handlers

section settings

variable {f : Config.Fields} {settings : Settings} {platform : Platform}

/-- **Settings that passed** make a configured orchestrator. -/
theorem configured_buildApp (hvalid : validate f = .ok settings) (hforeign : Foreign platform)
    (secrets : Secrets) (clients : List Client) (idFactory : ℕ → String) :
    Configured settings.promptVersion
      (buildApp settings secrets platform clients idFactory).orchestrator := by
  obtain ⟨hpasses, rfl⟩ := (validate_yields f settings).mp hvalid
  have hnotify := hpasses.reachable f.settings.notifyChannel (by simp)
  have hdeliver := hpasses.reachable f.settings.deliverChannel (by simp)
  exact ⟨raises_classify hforeign.answer hforeign.fields, raises_generate _, hnotify, hdeliver⟩

/-- **Nothing of the program's own reaches the server** but an unusable completion: not the exceptions
that the handlers translate, which they all catch, nor that of a missing notifier, which the settings
rule out, nor an illegal transition of a request in processing; and that of a missing prompt only if
the configured version is not in both tables. -/
theorem only_stray_escape (f : Config.Fields) (settings : Settings)
    (hvalid : validate f = .ok settings) (platform : Platform) (hforeign : Foreign platform)
    (secrets : Secrets) (clients : List Client) (idFactory : ℕ → String) (s : State) (exc : Exn) :
    let ctx := buildApp settings secrets platform clients idFactory
    let version := settings.promptVersion
    (∀ mode token challenge,
      verify ctx mode token challenge = .error (.escaped exc) → Stray version exc) ∧
    (∀ body signature now wall handling,
      (inbound ctx body signature now wall handling s).1 = .error (.escaped exc) →
        Stray version exc) ∧
    (∀ token feedback resolvedAt appliedAt env,
      (hitlAction ctx token feedback resolvedAt appliedAt env s).1 = .error (.escaped exc) →
        Stray version exc) ∧
    ∀ now handling, (tick ctx now handling s).1 = .error exc → Stray version exc := by
  intro ctx version
  have hcfg := configured_buildApp hvalid hforeign secrets clients idFactory
  exact ⟨fun _ _ _ => verify_escapes, fun _ _ _ _ _ => inbound_escapes hcfg hforeign.body,
    fun _ _ _ _ _ => hitlAction_escapes hcfg hforeign.token,
    fun now handling h => raises_processAll hcfg exc h⟩

end settings

open Bootstrap.Sample Orchestrator.Sample in
theorem foreign_sample : Foreign platform := by
  refine ⟨fun bs => ?_, fun bs => raises_error trivial, fun text => ?_, fun data => ?_⟩
  · change Raises (codec.modelValidateJson bs) BuiltIn
    unfold codec
    dsimp only
    split
    · exact raises_ok _
    · exact raises_error trivial
  · change Raises (decoder.loads text) BuiltIn
    unfold decoder
    dsimp only
    split_ifs
    · exact raises_ok _
    · exact raises_ok _
    · exact raises_error trivial
  · change Raises (decoder.validate data) BuiltIn
    unfold decoder
    dsimp only
    split
    · split_ifs
      · exact raises_ok _
      · exact raises_ok _
    · exact raises_error trivial

open Bootstrap.Sample in
theorem only_stray_escape_sample :
    let ctx := buildApp settings ⟨"verify-token", "secret"⟩ platform [] fun n => "req-" ++ natText n
    let version := settings.promptVersion
    (∀ mode token challenge, verify ctx mode token challenge =
      .error (.escaped (.missingNotifier "")) → Stray version (.missingNotifier "")) ∧
    (∀ body signature now wall handling, (inbound ctx body signature now wall handling
      State.initial).1 = .error (.escaped (.missingNotifier "")) →
        Stray version (.missingNotifier "")) ∧
    (∀ token feedback resolvedAt appliedAt env, (hitlAction ctx token feedback resolvedAt appliedAt
      env State.initial).1 = .error (.escaped (.missingNotifier "")) →
        Stray version (.missingNotifier "")) ∧
    ∀ now handling, (tick ctx now handling State.initial).1 = .error (.missingNotifier "") →
      Stray version (.missingNotifier "") :=
  only_stray_escape ⟨settings, none, none, 90⟩ settings rfl platform foreign_sample
    ⟨"verify-token", "secret"⟩ [] _ State.initial _

end WappPlanner.Api
