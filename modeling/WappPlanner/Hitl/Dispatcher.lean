import WappPlanner.Domain.Enums
import WappPlanner.Providers.Base

/-! # Channel dispatch

`hitl/dispatcher.py`: a message goes to every concrete channel of the configured channel, one after
the other. What was sent before a failure stays sent, so a dispatch is its answer together with the
messages that went out. `mem_sent_iff` says which messages those are, and `dispatched_iff` when a
dispatch returns. -/

namespace WappPlanner.Hitl.Dispatcher

open WappPlanner.Documents.Layout WappPlanner.Domain.Enums WappPlanner.Errors
open WappPlanner.Providers.Base

/-- The notifiers: what sending a message on a channel answers. -/
abbrev Notifiers := Channel → OutboundMessage → Answer String

/-- What a dispatch answers and the messages it sent. -/
structure Dispatch where
  result : Except Exn (List (Channel × String))
  sent : List (Channel × OutboundMessage)

/-- The owner's address on each channel that has a notifier. -/
structure ChannelDispatcher where
  targets : Channel → Option String

namespace ChannelDispatcher

variable (dispatcher : ChannelDispatcher) (notifiers : Notifiers)

/-- Send on the channels of a list; `message` is addressed to its argument. -/
def sendOn (message : String → OutboundMessage) : List Channel → Dispatch
  | [] => ⟨.ok [], []⟩
  | concrete :: rest =>
    match dispatcher.targets concrete with
    | none =>
      ⟨.error (.missingNotifier ("no notifier registered for '" ++ concrete.value ++ "'")), []⟩
    | some recipient =>
      match notifiers concrete (message recipient) with
      | .error text => ⟨.error (.external text), []⟩
      | .ok id =>
        ⟨(sendOn message rest).result.map ((concrete, id) :: ·),
          (concrete, message recipient) :: (sendOn message rest).sent⟩

/-- The concrete channels of a channel. -/
def channels (channel : Channel) : List Channel := concreteChannels.filter channel.includes

/-- The message for a recipient. -/
def outbound (subject : Option String) (body : String) (attachments : List Attachment)
    (recipient : String) : OutboundMessage := ⟨recipient, body, subject, attachments⟩

/-- Dispatch to every concrete channel in `channel`. -/
def send (channel : Channel) (body : String) (subject : Option String)
    (attachments : List Attachment) : Dispatch :=
  dispatcher.sendOn notifiers (outbound subject body attachments) (channels channel)

variable {dispatcher notifiers} {message : String → OutboundMessage}

theorem mem_sendOn {c : Channel} {m : OutboundMessage} : ∀ {cs : List Channel},
    (c, m) ∈ (dispatcher.sendOn notifiers message cs).sent →
      c ∈ cs ∧ ∃ recipient, dispatcher.targets c = some recipient ∧ m = message recipient
  | [], h => by simp [sendOn] at h
  | d :: cs, h => by
    unfold sendOn at h
    split at h
    · simp at h
    · rename_i recipient htarget
      split at h
      · simp at h
      · rcases List.mem_cons.mp h with h | h
        · simp only [Prod.mk.injEq] at h
          obtain ⟨rfl, rfl⟩ := h
          exact ⟨List.mem_cons_self, recipient, htarget, rfl⟩
        · obtain ⟨hc, hm⟩ := mem_sendOn h
          exact ⟨List.mem_cons_of_mem _ hc, hm⟩

theorem sendOn_error {exc : Exn} : ∀ {cs : List Channel},
    (dispatcher.sendOn notifiers message cs).result = .error exc → exc.isRefusal = false
  | [], h => by cases h
  | d :: cs, h => by
    unfold sendOn at h
    split at h
    · cases h
      rfl
    · split at h
      · cases h
        rfl
      · cases hrest : (dispatcher.sendOn notifiers message cs).result with
        | ok ids =>
          rw [hrest] at h
          cases h
        | error exc' =>
          rw [hrest] at h
          cases h
          exact sendOn_error hrest

/-! ### Which messages go out -/

variable (dispatcher notifiers message) in
/-- The owner has an address on the channel, and its notifier takes the message. -/
def Takes (c : Channel) : Prop :=
  ∃ recipient id, dispatcher.targets c = some recipient ∧ notifiers c (message recipient) = .ok id

variable (dispatcher notifiers message) in
/-- The message is taken on every channel of the list up to `c`. -/
def Reaches (cs : List Channel) (c : Channel) : Prop :=
  ∃ pre post, cs = pre ++ c :: post ∧ ∀ d ∈ pre ++ [c],
    Takes dispatcher notifiers message d

theorem sendOn_of_takes {d : Channel} (h : Takes dispatcher notifiers message d)
    (cs : List Channel) :
    ∃ recipient, dispatcher.targets d = some recipient ∧
      (dispatcher.sendOn notifiers message (d :: cs)).sent =
        (d, message recipient) :: (dispatcher.sendOn notifiers message cs).sent := by
  obtain ⟨recipient, id, htarget, hsend⟩ := h
  refine ⟨recipient, htarget, ?_⟩
  simp only [sendOn, htarget, hsend]

theorem sendOn_of_not_takes {d : Channel} {cs : List Channel}
    (h : ¬ Takes dispatcher notifiers message d) :
    (dispatcher.sendOn notifiers message (d :: cs)).sent = [] := by
  unfold sendOn
  split
  · rfl
  · rename_i recipient htarget
    split
    · rfl
    · rename_i id hsend
      exact absurd ⟨recipient, id, htarget, hsend⟩ h

/-- **A message goes out on a channel** exactly when it is taken on the channels up to it. -/
theorem mem_sent_iff {c : Channel} {m : OutboundMessage} {cs : List Channel} :
    (c, m) ∈ (dispatcher.sendOn notifiers message cs).sent ↔
      Reaches dispatcher notifiers message cs c ∧
        ∃ recipient, dispatcher.targets c = some recipient ∧ m = message recipient := by
  constructor
  · intro h
    refine ⟨?_, (mem_sendOn h).2⟩
    induction cs with
    | nil => simp [sendOn] at h
    | cons d cs ih =>
      by_cases hd : Takes dispatcher notifiers message d
      · obtain ⟨recipient, -, hsent⟩ := sendOn_of_takes hd cs
        rw [hsent, List.mem_cons] at h
        rcases h with h | h
        · simp only [Prod.mk.injEq] at h
          obtain ⟨rfl, -⟩ := h
          exact ⟨[], cs, rfl, by simpa using hd⟩
        · obtain ⟨pre, post, rfl, hpre⟩ := ih h
          exact ⟨d :: pre, post, rfl, by simpa [hd] using hpre⟩
      · rw [sendOn_of_not_takes hd] at h
        cases h
  · rintro ⟨⟨pre, post, rfl, hpre⟩, recipient, htarget, rfl⟩
    induction pre with
    | nil =>
      obtain ⟨recipient', htarget', hsent⟩ := sendOn_of_takes (hpre c (by simp)) post
      rw [htarget, Option.some.injEq] at htarget'
      subst htarget'
      rw [List.nil_append, hsent]
      exact List.mem_cons_self
    | cons d pre ih =>
      obtain ⟨_, -, hsent⟩ := sendOn_of_takes (hpre d (by simp)) (pre ++ c :: post)
      rw [List.cons_append, hsent]
      exact List.mem_cons_of_mem _ (ih fun e he => hpre e (List.mem_cons_of_mem _ he))

theorem Reaches.takes {c : Channel} {cs : List Channel}
    (h : Reaches dispatcher notifiers message cs c) : Takes dispatcher notifiers message c := by
  obtain ⟨pre, post, -, hpre⟩ := h
  exact hpre c (by simp)

/-- A message that is taken on every channel reaches every channel. -/
theorem reaches_all_iff {cs : List Channel} :
    (∀ c ∈ cs, Reaches dispatcher notifiers message cs c) ↔
      ∀ c ∈ cs, Takes dispatcher notifiers message c := by
  constructor
  · exact fun h c hc => (h c hc).takes
  · intro h c hc
    obtain ⟨pre, post, rfl⟩ := List.append_of_mem hc
    refine ⟨pre, post, rfl, fun d hd => h d ?_⟩
    rcases List.mem_append.mp hd with hd | hd
    · exact List.mem_append_left _ hd
    · exact List.mem_append_right _ (List.mem_cons.mpr (.inl (List.mem_singleton.mp hd)))

/-- **A dispatch returns** when its message is taken on every channel. -/
theorem dispatched_iff : ∀ {cs : List Channel},
    (∃ ids, (dispatcher.sendOn notifiers message cs).result = .ok ids) ↔
      ∀ c ∈ cs, Takes dispatcher notifiers message c
  | [] => by simp [sendOn]
  | d :: cs => by
    rw [List.forall_mem_cons, ← dispatched_iff, sendOn]
    unfold Takes
    split
    · rename_i htarget
      simp [htarget]
    · rename_i recipient htarget
      split
      · rename_i text hsend
        simp [htarget, hsend]
      · rename_i id hsend
        cases (dispatcher.sendOn notifiers message cs).result <;> simp [htarget, hsend, Except.map]

end ChannelDispatcher

end WappPlanner.Hitl.Dispatcher
