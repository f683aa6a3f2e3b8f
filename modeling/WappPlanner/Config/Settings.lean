import WappPlanner.Bootstrap

/-! # Validated settings

`config/settings.py`: what a deployment configures is checked when it is constructed, every field
against its bound first and then, if no bound is broken, the windows and the contacts of the owner.
`Valid` says what passes (`validate_yields`). The contacts are what the dispatcher needs: an address
for every channel that is sent on (`reaches_iff`). -/

namespace WappPlanner.Config

open WappPlanner.Bootstrap WappPlanner.Domain.Enums WappPlanner.Errors
open WappPlanner.Hitl.Dispatcher WappPlanner.Hitl.Dispatcher.ChannelDispatcher
open WappPlanner.Lib.Fallible WappPlanner.Providers.Base WappPlanner.Py.Text WappPlanner.Py.Values

/-- The fields that have a bound: those of `Settings`, and three that no service reads. -/
structure Fields where
  settings : Settings
  perRequestCostCapUsd : Option PyFloat
  dailyCostCapUsd : Option PyFloat
  retentionDays : ℤ

/-- The place of an error and its text. -/
abbrev Complaint := String × String

/-- `x > 0` for a float. -/
def exceedsZero : PyFloat → Bool
  | .finite q => 0 < q
  | .negZero => false
  | .inf negative => !negative
  | .nan => false

/-- `Field(gt=0)`. -/
def greaterThanZero (field : String) (holds : Bool) : List Complaint :=
  if holds then [] else [(field, "Input should be greater than 0")]

def fieldErrors (f : Fields) : List Complaint :=
  greaterThanZero "aggregation_inactivity_seconds" (0 < f.settings.aggregationInactivitySeconds) ++
    greaterThanZero "aggregation_max_duration_seconds"
      (0 < f.settings.aggregationMaxDurationSeconds) ++
    greaterThanZero "per_request_cost_cap_usd" (f.perRequestCostCapUsd.all exceedsZero) ++
    greaterThanZero "daily_cost_cap_usd" (f.dailyCostCapUsd.all exceedsZero) ++
    greaterThanZero "max_media_bytes" (0 < f.settings.maxMediaBytes) ++
    greaterThanZero "retention_days" (0 < f.retentionDays)

/-- `not x` for an optional text. -/
def missing (x : Option String) : Bool := x = none || x = some ""

/-- The contacts that the channels of a list of purposes require. -/
def checkContacts (settings : Settings) : List (String × Channel) → Except Exn Unit
  | [] => .ok ()
  | (purpose, channel) :: rest =>
    if channel.includes .email && missing settings.ownerEmail then
      .error (.valueError
        ("owner_email is required for " ++ purpose ++ " channel '" ++ channel.value ++ "'"))
    else if channel.includes .whatsapp && missing settings.ownerWhatsapp then
      .error (.valueError
        ("owner_whatsapp is required for " ++ purpose ++ " channel '" ++ channel.value ++ "'"))
    else checkContacts settings rest

def validateWindowsAndContacts (settings : Settings) : Except Exn Settings :=
  if settings.aggregationMaxDurationSeconds < settings.aggregationInactivitySeconds then
    .error (.valueError
      "aggregation_max_duration_seconds must be >= aggregation_inactivity_seconds")
  else do
    checkContacts settings [("notify", settings.notifyChannel), ("deliver", settings.deliverChannel)]
    return settings

/-- The settings, or all complaints about the fields, or the one of the validator that runs after
them, which is about no field. -/
def validate (f : Fields) : Except (List Complaint) Settings :=
  match fieldErrors f with
  | [] =>
    match validateWindowsAndContacts f.settings with
    | .ok settings => .ok settings
    | .error exc => .error [("", "Value error, " ++ exc.text)]
  | complaints => .error complaints

/-! ### What passes -/

/-- The owner has an address on every channel that is sent on. -/
def Reachable (settings : Settings) : Prop :=
  ∀ channel ∈ [settings.notifyChannel, settings.deliverChannel], ∀ c ∈ channels channel,
    (targets settings c).isSome

/-- Settings that pass. -/
structure Valid (f : Fields) : Prop where
  inactivity : 0 < f.settings.aggregationInactivitySeconds
  ordered : f.settings.aggregationInactivitySeconds ≤ f.settings.aggregationMaxDurationSeconds
  caps : ∀ cap ∈ [f.perRequestCostCapUsd, f.dailyCostCapUsd], cap.all exceedsZero
  media : 0 < f.settings.maxMediaBytes
  retention : 0 < f.retentionDays
  reachable : Reachable f.settings

section contacts

variable {settings : Settings} {channel : Channel}

theorem isSome_filter (x : Option String) : (x.filter (· ≠ "")).isSome = !missing x := by
  cases x with
  | none => rfl
  | some s => by_cases hs : s = "" <;> simp [missing, hs, Option.filter]

theorem targets_isSome : (targets settings .email).isSome = !missing settings.ownerEmail ∧
    (targets settings .whatsapp).isSome = !missing settings.ownerWhatsapp :=
  ⟨isSome_filter settings.ownerEmail, isSome_filter settings.ownerWhatsapp⟩

theorem forall_channels {p : Channel → Prop} : (∀ c ∈ channels channel, p c) ↔
    (channel.includes .email = true → p .email) ∧
      (channel.includes .whatsapp = true → p .whatsapp) := by
  cases channel <;> simp [channels, concreteChannels, Channel.includes]

theorem checkContacts_yields (purposes : List (String × Channel)) :
    Yields (checkContacts settings purposes)
      (∀ p ∈ purposes, ∀ c ∈ channels p.2, (targets settings c).isSome) () := by
  induction purposes with
  | nil => exact (yields_ok ()).congr (iff_of_true trivial fun p hp => by cases hp)
  | cons p purposes ih =>
    obtain ⟨purpose, channel⟩ := p
    obtain ⟨hemail, hwhatsapp⟩ := @targets_isSome settings
    unfold checkContacts
    rw [List.forall_mem_cons, forall_channels, hemail, hwhatsapp]
    split_ifs with h h'
    · refine (yields_error _ _).congr (iff_of_false id ?_)
      rintro ⟨⟨hreached, -⟩, -⟩
      simp_all
    · refine (yields_error _ _).congr (iff_of_false id ?_)
      rintro ⟨⟨-, hreached⟩, -⟩
      simp_all
    · refine ih.congr (and_iff_right ?_).symm
      simp_all

/-- **A dispatch on the channel returns** whenever the notifiers take the message, exactly if every
channel it is sent on has an address. -/
theorem reaches_iff : (∀ c ∈ channels channel, (targets settings c).isSome) ↔
    ∀ (notifiers : Notifiers) (message : String → OutboundMessage),
      (∀ c m, Succeeds (notifiers c m)) →
        Succeeds ((⟨targets settings⟩ : ChannelDispatcher).sendOn notifiers message
          (channels channel)).result := by
  constructor
  · intro h notifiers message hnotifiers
    refine dispatched_iff.mpr fun c hc => ?_
    obtain ⟨recipient, htarget⟩ := Option.isSome_iff_exists.mp (h c hc)
    obtain ⟨id, hid⟩ := hnotifiers c (message recipient)
    exact ⟨recipient, id, htarget, hid⟩
  · intro h c hc
    have hreturns := h (fun _ _ => .ok "") (fun recipient => ⟨recipient, "", none, []⟩)
      fun _ _ => succeeds_ok _
    obtain ⟨recipient, -, htarget, -⟩ := dispatched_iff.mp hreturns c hc
    exact Option.isSome_of_eq_some htarget

end contacts

theorem external_of_sendOn {dispatcher : ChannelDispatcher} {notifiers : Notifiers}
    {message : String → OutboundMessage} {exc : Exn} {cs : List Channel}
    (hcs : ∀ c ∈ cs, (dispatcher.targets c).isSome)
    (h : (dispatcher.sendOn notifiers message cs).result = .error exc) :
    ∃ text, exc = .external text := by
  induction cs with
  | nil => cases h
  | cons c cs ih =>
    obtain ⟨recipient, htarget⟩ := Option.isSome_iff_exists.mp (hcs c List.mem_cons_self)
    have hrest := ih fun d hd => hcs d (List.mem_cons_of_mem c hd)
    simp only [sendOn, htarget] at h
    split at h
    · exact ⟨_, (Except.error.inj h).symm⟩
    · cases hsent : (dispatcher.sendOn notifiers message cs).result with
      | ok ids =>
        rw [hsent] at h
        cases h
      | error exc' =>
        rw [hsent] at h
        cases h
        exact hrest hsent

section fields

variable {f : Fields}

theorem greaterThanZero_eq_nil {field : String} {holds : Bool} :
    greaterThanZero field holds = [] ↔ holds = true := by
  cases holds <;> simp [greaterThanZero]

theorem fieldErrors_eq_nil : fieldErrors f = [] ↔
    0 < f.settings.aggregationInactivitySeconds ∧ 0 < f.settings.aggregationMaxDurationSeconds ∧
      (∀ cap ∈ [f.perRequestCostCapUsd, f.dailyCostCapUsd], cap.all exceedsZero) ∧
        0 < f.settings.maxMediaBytes ∧ 0 < f.retentionDays := by
  unfold fieldErrors
  simp only [List.append_eq_nil_iff, greaterThanZero_eq_nil, decide_eq_true_eq, List.forall_mem_cons,
    List.not_mem_nil, false_implies, implies_true, and_true, and_assoc]

theorem validateWindowsAndContacts_yields (settings : Settings) :
    Yields (validateWindowsAndContacts settings)
      (settings.aggregationInactivitySeconds ≤ settings.aggregationMaxDurationSeconds ∧
        Reachable settings) settings := by
  have hpurposes : (∀ p ∈ [("notify", settings.notifyChannel), ("deliver", settings.deliverChannel)],
      ∀ c ∈ channels p.2, (targets settings c).isSome) ↔ Reachable settings := by
    simp [Reachable]
  unfold validateWindowsAndContacts
  split_ifs with h
  · exact (yields_error _ _).congr (iff_of_false id fun hvalid => by omega)
  · refine ((checkContacts_yields _).map fun _ => settings).congr ?_
    rw [hpurposes]
    exact (and_iff_right (by omega)).symm

/-- **What passes**, and that it passes unchanged. -/
theorem validate_yields (f : Fields) : Yields (validate f) (Valid f) f.settings := by
  intro settings
  unfold validate
  split
  · rename_i hfields
    obtain ⟨hinactivity, -, hcaps, hmedia, hretention⟩ := fieldErrors_eq_nil.mp hfields
    have hyields := validateWindowsAndContacts_yields f.settings
    split
    · rename_i settings' hsettings
      obtain ⟨⟨hordered, hreachable⟩, rfl⟩ := (hyields settings').mp hsettings
      rw [Except.ok.injEq]
      constructor
      · rintro rfl
        exact ⟨⟨hinactivity, hordered, hcaps, hmedia, hretention, hreachable⟩, rfl⟩
      · rintro ⟨-, rfl⟩
        rfl
    · rename_i exc hexc
      refine iff_of_false (fun h => by cases h) ?_
      rintro ⟨hvalid, rfl⟩
      have hok := (hyields f.settings).mpr ⟨⟨hvalid.ordered, hvalid.reachable⟩, rfl⟩
      rw [hexc] at hok
      cases hok
  · rename_i hfields
    refine iff_of_false (fun h => by cases h) ?_
    rintro ⟨hvalid, -⟩
    have hmax := lt_of_lt_of_le hvalid.inactivity hvalid.ordered
    exact hfields (fieldErrors_eq_nil.mpr
      ⟨hvalid.inactivity, hmax, hvalid.caps, hvalid.media, hvalid.retention⟩)

end fields

end WappPlanner.Config
