import Mathlib.Data.List.Forall2
import Mathlib.Tactic.Common

/-! # Computations that may fail

When a chain of computations in `Except`, or one computation for each element of a list, gives a
result. `Yields x P a` says both what it gives and when, `Raises x P` what it raises. -/

namespace WappPlanner.Lib.Fallible

variable {ε α β : Type*}

/-- The computation gives a result. -/
def Succeeds (x : Except ε α) : Prop := ∃ a, x = .ok a

@[simp] theorem succeeds_ok (a : α) : Succeeds (.ok a : Except ε α) := ⟨a, rfl⟩

@[simp] theorem not_succeeds_error (e : ε) : ¬ Succeeds (.error e : Except ε α) := by
  rintro ⟨a, h⟩
  cases h

section chain

variable {ε α β : Type}

theorem bind_eq_ok {x : Except ε α} {f : α → Except ε β} {b : β} :
    x >>= f = .ok b ↔ ∃ a, x = .ok a ∧ f a = .ok b := by
  cases x with
  | error e =>
    constructor
    · intro h
      cases h
    · rintro ⟨a, h, -⟩
      cases h
  | ok a =>
    constructor
    · exact fun h => ⟨a, rfl, h⟩
    · rintro ⟨a', h, hb⟩
      obtain rfl := Except.ok.inj h
      exact hb

/-- **A chain succeeds** when its first part does and its second part does on the first's result. -/
theorem succeeds_bind {x : Except ε α} {f : α → Except ε β} :
    Succeeds (x >>= f) ↔ ∃ a, x = .ok a ∧ Succeeds (f a) := by
  constructor
  · rintro ⟨b, hb⟩
    obtain ⟨a, ha, hfa⟩ := bind_eq_ok.mp hb
    exact ⟨a, ha, b, hfa⟩
  · rintro ⟨a, ha, b, hb⟩
    exact ⟨b, bind_eq_ok.mpr ⟨a, ha, hb⟩⟩

theorem succeeds_map {x : Except ε α} {f : α → β} : Succeeds (f <$> x) ↔ Succeeds x := by
  cases x with
  | error e => exact iff_of_false (not_succeeds_error e) (not_succeeds_error e)
  | ok a => exact iff_of_true ⟨f a, rfl⟩ ⟨a, rfl⟩

theorem map_eq_ok {x : Except ε α} {f : α → β} {b : β} :
    x.map f = .ok b ↔ ∃ a, x = .ok a ∧ f a = b := by
  cases x <;> simp [Except.map]

theorem mapM_eq_ok {f : α → Except ε β} {l : List α} {r : List β} :
    l.mapM f = .ok r ↔ List.Forall₂ (fun a b => f a = .ok b) l r := by
  induction l generalizing r with
  | nil =>
    rw [List.mapM_nil, List.forall₂_nil_left_iff]
    constructor
    · intro h
      exact (Except.ok.inj h).symm
    · rintro rfl
      rfl
  | cons a l ih =>
    rw [List.mapM_cons, bind_eq_ok, List.forall₂_cons_left_iff]
    constructor
    · rintro ⟨b, hb, h⟩
      obtain ⟨bs, hbs, hr⟩ := bind_eq_ok.mp h
      exact ⟨b, bs, hb, ih.mp hbs, (Except.ok.inj hr).symm⟩
    · rintro ⟨b, bs, hb, hbs, rfl⟩
      exact ⟨b, hb, bind_eq_ok.mpr ⟨bs, ih.mpr hbs, rfl⟩⟩

theorem exists_of_mem_mapM {f : α → Except ε β} {l : List α} {r : List β} (h : l.mapM f = .ok r)
    {b : β} (hb : b ∈ r) : ∃ a ∈ l, f a = .ok b := by
  have hall := mapM_eq_ok.mp h
  clear h
  induction hall with
  | nil => cases hb
  | cons hab _ ih =>
    rcases List.mem_cons.mp hb with rfl | hb
    · exact ⟨_, List.mem_cons_self, hab⟩
    · obtain ⟨a, ha, hfa⟩ := ih hb
      exact ⟨a, List.mem_cons_of_mem _ ha, hfa⟩

theorem mapM_filter {f : α → Except ε β} {p : α → Bool} {q : β → Bool} {l : List α} {r : List β}
    (h : l.mapM f = .ok r) (hpq : ∀ a b, f a = .ok b → p a = q b) :
    (l.filter p).mapM f = .ok (r.filter q) := by
  have hall := mapM_eq_ok.mp h
  clear h
  rw [mapM_eq_ok]
  induction hall with
  | nil => exact .nil
  | @cons a b l r hab _ ih =>
    rw [List.filter_cons, List.filter_cons, hpq a b hab]
    split_ifs
    · exact .cons hab ih
    · exact ih

/-- **A traversal succeeds** when it does at every element. -/
theorem succeeds_mapM {f : α → Except ε β} {l : List α} :
    Succeeds (l.mapM f) ↔ ∀ a ∈ l, Succeeds (f a) := by
  induction l with
  | nil => simpa using ⟨([] : List β), rfl⟩
  | cons a l ih =>
    rw [List.mapM_cons, succeeds_bind, List.forall_mem_cons, ← ih]
    constructor
    · rintro ⟨b, hb, h⟩
      obtain ⟨bs, hbs, -⟩ := succeeds_bind.mp h
      exact ⟨⟨b, hb⟩, ⟨bs, hbs⟩⟩
    · rintro ⟨⟨b, hb⟩, ⟨bs, hbs⟩⟩
      exact ⟨b, hb, succeeds_bind.mpr ⟨bs, hbs, succeeds_ok _⟩⟩

/-- The elements with `p` and the results that are kept, where these are the results of those. -/
theorem forall₂_filter_filterMap {γ : Type} {R : α → β → Prop} {S : α → γ → Prop} {p : α → Bool}
    {g : β → Option γ} {l : List α} {r : List β} (h : List.Forall₂ R l r)
    (hkept : ∀ a b, R a b → p a = true → ∃ c, g b = some c ∧ S a c)
    (hdropped : ∀ a b, R a b → p a = false → g b = none) :
    List.Forall₂ S (l.filter p) (r.filterMap g) := by
  induction h with
  | nil => exact .nil
  | @cons a b l r hab _ ih =>
    rw [List.filter_cons]
    split_ifs with hp
    · obtain ⟨c, hc, hS⟩ := hkept a b hab hp
      rw [List.filterMap_cons_some hc]
      exact .cons hS ih
    · rw [List.filterMap_cons_none (hdropped a b hab (eq_false_of_ne_true hp))]
      exact ih

/-! ### What a computation gives, and when -/

section yields

/-- The computation gives `a` when `P` holds, and no result otherwise. -/
def Yields (x : Except ε α) (P : Prop) (a : α) : Prop := ∀ b, x = .ok b ↔ P ∧ b = a

variable {x : Except ε α} {P Q : Prop} {a : α}

theorem yields_ok (a : α) : Yields (.ok a : Except ε α) True a := by
  intro b
  rw [true_and, Except.ok.injEq]
  exact eq_comm

theorem yields_error (e : ε) (a : α) : Yields (.error e : Except ε α) False a := by
  intro b
  rw [false_and, iff_false]
  exact fun h => by cases h

theorem Yields.succeeds (h : Yields x P a) : Succeeds x ↔ P := by
  constructor
  · rintro ⟨b, hb⟩
    exact ((h b).mp hb).1
  · exact fun hP => ⟨a, (h a).mpr ⟨hP, rfl⟩⟩

theorem Yields.bind_eq_ok (h : Yields x P a) {f : α → Except ε β} {b : β} :
    x >>= f = .ok b ↔ P ∧ f a = .ok b := by
  rw [Fallible.bind_eq_ok]
  constructor
  · rintro ⟨a', ha', hb⟩
    obtain ⟨hP, rfl⟩ := (h a').mp ha'
    exact ⟨hP, hb⟩
  · rintro ⟨hP, hb⟩
    exact ⟨a, (h a).mpr ⟨hP, rfl⟩, hb⟩

theorem Yields.succeeds_bind (h : Yields x P a) {f : α → Except ε β} :
    Succeeds (x >>= f) ↔ P ∧ Succeeds (f a) := by
  unfold Succeeds
  simp only [h.bind_eq_ok, exists_and_left]

theorem Yields.bind (h : Yields x P a) {f : α → Except ε β} {b : β} (hf : Yields (f a) Q b) :
    Yields (x >>= f) (P ∧ Q) b := by
  intro c
  rw [h.bind_eq_ok, hf c, and_assoc]

theorem Yields.map (h : Yields x P a) (f : α → β) :
    Yields (x >>= fun a => (.ok (f a) : Except ε β)) P (f a) := by
  intro c
  rw [h.bind_eq_ok, yields_ok, true_and]

theorem Yields.congr (h : Yields x P a) (hPQ : P ↔ Q) : Yields x Q a := by
  intro b
  rw [h b, hPQ]

/-- **A traversal gives** the list of what its elements give. -/
theorem yields_mapM {f : α → Except ε β} {p : α → Prop} {g : α → β}
    (h : ∀ a, Yields (f a) (p a) (g a)) (l : List α) :
    Yields (l.mapM f) (∀ a ∈ l, p a) (l.map g) := by
  intro r
  rw [mapM_eq_ok]
  induction l generalizing r with
  | nil => simp
  | cons a l ih =>
    rw [List.forall₂_cons_left_iff, List.forall_mem_cons, List.map_cons]
    constructor
    · rintro ⟨b, bs, hb, hbs, rfl⟩
      obtain ⟨ha, rfl⟩ := (h a b).mp hb
      obtain ⟨hl, rfl⟩ := (ih bs).mp hbs
      exact ⟨⟨ha, hl⟩, rfl⟩
    · rintro ⟨⟨ha, hl⟩, rfl⟩
      exact ⟨_, _, (h a _).mpr ⟨ha, rfl⟩, (ih _).mpr ⟨hl, rfl⟩, rfl⟩

end yields

/-! ### What a computation raises -/

section raises

/-- All that the computation can raise is in `p`. -/
def Raises (x : Except ε α) (p : ε → Prop) : Prop := ∀ e, x = .error e → p e

variable {p : ε → Prop}

theorem raises_ok (a : α) : Raises (.ok a) p := fun _ h => by cases h

theorem raises_error {e : ε} (h : p e) : Raises (.error e : Except ε α) p := by
  intro e' he'
  rw [← Except.error.inj he']
  exact h

theorem raises_bind {x : Except ε α} {f : α → Except ε β} (hx : Raises x p)
    (hf : ∀ a, Raises (f a) p) : Raises (x >>= f) p := by
  cases x with
  | error e => exact raises_error (hx e rfl)
  | ok a => exact hf a

theorem raises_map {x : Except ε α} {f : α → β} (hx : Raises x p) : Raises (f <$> x) p := by
  cases x with
  | error e => exact raises_error (hx e rfl)
  | ok a => exact raises_ok _

theorem raises_mapM {f : α → Except ε β} (h : ∀ a, Raises (f a) p) (l : List α) :
    Raises (l.mapM f) p := by
  induction l with
  | nil => exact raises_ok _
  | cons a l ih =>
    rw [List.mapM_cons]
    exact raises_bind (h a) fun b => raises_bind ih fun bs => raises_ok _

end raises

end chain

end WappPlanner.Lib.Fallible
