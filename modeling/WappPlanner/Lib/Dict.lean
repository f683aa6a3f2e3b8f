import Mathlib.Data.List.Nodup

/-! # Insertion-ordered dictionaries

A dictionary is the list of its entries in order of insertion, without a repeated key. Setting a key
that is present keeps its place; a new key goes last. -/

namespace WappPlanner.Lib

/-- A dictionary that remembers the order in which its keys came. -/
@[ext]
structure Dict (κ ν : Type*) where
  entries : List (κ × ν)
  nodup : (entries.map Prod.fst).Nodup

namespace Dict

variable {κ ν : Type*} [DecidableEq κ]

def empty : Dict κ ν := ⟨[], List.nodup_nil⟩

variable (d : Dict κ ν)

def keys : List κ := d.entries.map Prod.fst

def values : List ν := d.entries.map Prod.snd

/-- `d.get(k)`. -/
def get (k : κ) : Option ν := d.entries.lookup k

/-- The entries with the value at `k` replaced. -/
def replaced (k : κ) (v : ν) : List (κ × ν) := d.entries.map fun e => if e.1 = k then (k, v) else e

theorem map_fst_replaced (k : κ) (v : ν) : (d.replaced k v).map Prod.fst = d.keys := by
  unfold replaced keys
  rw [List.map_map]
  refine List.map_congr_left fun e _ => ?_
  by_cases h : e.1 = k <;> simp [h]

/-- `d[k] = v`. -/
def set (k : κ) (v : ν) : Dict κ ν :=
  if h : k ∈ d.keys then ⟨d.replaced k v, by rw [map_fst_replaced]; exact d.nodup⟩
  else ⟨d.entries ++ [(k, v)], by
    rw [List.map_append, List.nodup_append]
    exact ⟨d.nodup, by simp, by rintro a ha b hb rfl; simp at hb; exact h (hb ▸ ha)⟩⟩

/-- `d.pop(k)`, the entries that stay. -/
def erase (k : κ) : Dict κ ν :=
  ⟨d.entries.filter fun e => e.1 ≠ k, (List.filter_sublist.map Prod.fst).nodup d.nodup⟩

variable {d} {k k' : κ} {v v' : ν}

theorem lookup_eq_some {es : List (κ × ν)} (h : (es.map Prod.fst).Nodup) :
    es.lookup k = some v ↔ (k, v) ∈ es := by
  induction es with
  | nil => simp
  | cons e es ih =>
    obtain ⟨k₀, v₀⟩ := e
    rw [List.map_cons, List.nodup_cons] at h
    rw [List.lookup_cons, List.mem_cons]
    by_cases hkk : k = k₀
    · subst hkk
      have hno : (k, v) ∉ es := fun hm => h.1 (List.mem_map.mpr ⟨_, hm, rfl⟩)
      simp [hno, eq_comm]
    · have hb : (k == k₀) = false := by simpa using hkk
      simp [hb, hkk, ih h.2]

/-- **Looking up is membership.** -/
theorem get_eq_some : d.get k = some v ↔ (k, v) ∈ d.entries := lookup_eq_some d.nodup

theorem mem_replaced {e : κ × ν} (h : k ∈ d.keys) :
    e ∈ d.replaced k v ↔ if e.1 = k then e.2 = v else e ∈ d.entries := by
  unfold replaced
  rw [List.mem_map]
  constructor
  · rintro ⟨e', he', rfl⟩
    by_cases hk : e'.1 = k
    · simp [hk]
    · simp [hk, he']
  · intro he
    by_cases hk : e.1 = k
    · rw [if_pos hk] at he
      obtain ⟨e', he', hk'⟩ := List.mem_map.mp h
      exact ⟨e', he', by rw [if_pos hk', ← he, ← hk]⟩
    · rw [if_neg hk] at he
      exact ⟨e, he, if_neg hk⟩

theorem mem_set {e : κ × ν} :
    e ∈ (d.set k v).entries ↔ if e.1 = k then e.2 = v else e ∈ d.entries := by
  unfold set
  split
  · rename_i h
    exact mem_replaced h
  · rename_i h
    rw [List.mem_append, List.mem_singleton]
    by_cases hk : e.1 = k
    · have hno : e ∉ d.entries := fun hm => h (hk ▸ List.mem_map_of_mem hm)
      simp [hk, hno, Prod.ext_iff]
    · simp [hk, Prod.ext_iff]

theorem mem_erase {e : κ × ν} : e ∈ (d.erase k).entries ↔ e ∈ d.entries ∧ e.1 ≠ k := by
  simp [erase]

theorem get_set : (d.set k v).get k' = if k' = k then some v else d.get k' := by
  ext w
  rw [get_eq_some, mem_set]
  by_cases h : k' = k
  · simp [h, eq_comm]
  · simp [h, get_eq_some]

theorem get_erase : (d.erase k).get k' = if k' = k then none else d.get k' := by
  ext w
  rw [get_eq_some, mem_erase]
  by_cases h : k' = k <;> simp [h, get_eq_some]

/-- **The entries under a key**: the one that looking it up gives. -/
theorem filter_key (k : κ) :
    d.entries.filter (fun e => e.1 = k) = ((d.get k).map (k, ·)).toList := by
  have hentries : ∀ es : List (κ × ν), (es.map Prod.fst).Nodup →
      es.filter (fun e => e.1 = k) = ((es.lookup k).map (k, ·)).toList := by
    intro es hnd
    induction es with
    | nil => rfl
    | cons e es ih =>
      obtain ⟨k₀, v₀⟩ := e
      obtain ⟨hk, hes⟩ := List.nodup_cons.mp hnd
      rw [List.filter_cons, List.lookup_cons]
      by_cases h : k₀ = k
      · subst h
        have hnone : es.filter (fun e => e.1 = k₀) = [] := by
          rw [List.filter_eq_nil_iff]
          rintro ⟨k', v'⟩ hmem heq
          exact hk (List.mem_map.mpr ⟨_, hmem, of_decide_eq_true heq⟩)
        simp [hnone]
      · have hb : (k == k₀) = false := by simpa using Ne.symm h
        simp [h, hb, ih hes]
  exact hentries d.entries d.nodup

theorem entries_foldl_set {key : ν → κ} : ∀ {vs : List ν} {d : Dict κ ν},
    (d.keys ++ vs.map key).Nodup →
      (vs.foldl (fun d v => d.set (key v) v) d).entries = d.entries ++ vs.map fun v => (key v, v)
  | [], d, _ => by simp
  | v :: vs, d, hnd => by
    have hv : key v ∉ d.keys := fun hmem =>
      (List.nodup_append.mp hnd).2.2 _ hmem _ (by simp) rfl
    have hset : (d.set (key v) v).entries = d.entries ++ [(key v, v)] := by
      unfold set
      rw [dif_neg hv]
    have hkeys : (d.set (key v) v).keys = d.keys ++ [key v] := by simp [keys, hset]
    rw [List.foldl_cons, entries_foldl_set (by simpa [hkeys] using hnd), hset]
    simp

theorem get_foldl_erase {ι : Type*} {f : ι → κ} : ∀ {l : List ι} {d : Dict κ ν},
    (l.foldl (fun d i => d.erase (f i)) d).get k = if k ∈ l.map f then none else d.get k
  | [], d => by simp
  | i :: l, d => by
    rw [List.foldl_cons, get_foldl_erase, get_erase]
    by_cases hk : k = f i <;> simp [hk]

/-! ### Entries up to order -/

theorem entries_erase : (d.erase k).entries = d.entries.filter fun e => e.1 ≠ k := rfl

theorem erase_of_notMem (h : k ∉ d.keys) : (d.erase k).entries = d.entries := by
  refine List.filter_eq_self.mpr fun e he => ?_
  have hne : e.1 ≠ k := fun hk => h (hk ▸ List.mem_map_of_mem he)
  exact decide_eq_true hne

theorem perm_of_get (h : d.get k = some v) : d.entries.Perm ((k, v) :: (d.erase k).entries) := by
  have hkey : d.entries.filter (fun e => e.1 = k) = [(k, v)] := by
    rw [filter_key, h]
    rfl
  have hsplit := (List.filter_append_perm (fun e : κ × ν => e.1 = k) d.entries).symm
  rw [hkey] at hsplit
  simpa [erase] using hsplit

theorem perm_set : (d.set k v).entries.Perm ((k, v) :: (d.erase k).entries) := by
  have herase : ((d.set k v).erase k).entries = (d.erase k).entries := by
    by_cases hk : k ∈ d.keys
    · have hset : (d.set k v).entries = d.replaced k v := by rw [set, dif_pos hk]
      rw [entries_erase, hset, replaced, List.filter_map, entries_erase]
      have hcomp : ((fun e : κ × ν => decide (e.1 ≠ k)) ∘ fun e => if e.1 = k then (k, v) else e) =
          fun e => decide (e.1 ≠ k) := by
        funext e
        by_cases he : e.1 = k <;> simp [he]
      rw [hcomp]
      refine (List.map_congr_left fun e he => ?_).trans (List.map_id _)
      exact if_neg (of_decide_eq_true (List.mem_filter.mp he).2)
    · have hset : (d.set k v).entries = d.entries ++ [(k, v)] := by rw [set, dif_neg hk]
      rw [entries_erase, hset, List.filter_append, entries_erase]
      simp
  rw [← herase]
  exact perm_of_get (by rw [get_set, if_pos rfl])

theorem perm_values_erase (h : d.get k = some v) : d.values.Perm (v :: (d.erase k).values) :=
  (perm_of_get h).map Prod.snd

theorem notMem_keys (h : d.get k = none) : k ∉ d.keys := by
  intro hmem
  obtain ⟨⟨k', v⟩, hentry, rfl⟩ := List.mem_map.mp hmem
  rw [get_eq_some.mpr hentry] at h
  cases h

theorem perm_values_set (h : d.get k = none) : (d.set k v).values.Perm (v :: d.values) := by
  have hperm := (perm_set (d := d) (k := k) (v := v)).map Prod.snd
  rw [erase_of_notMem (notMem_keys h)] at hperm
  exact hperm

theorem entries_set (h : d.get k = none) : (d.set k v).entries = d.entries ++ [(k, v)] := by
  unfold set
  rw [dif_neg (notMem_keys h)]

/-! ### Dictionaries that match -/

section matching

variable {ω : Type*} {R R' : ν → ω → Prop} {d' : Dict κ ω} {w : ω}

/-- The dictionaries have the same keys in the same order, with related values. -/
def Matches (R : ν → ω → Prop) (d : Dict κ ν) (d' : Dict κ ω) : Prop :=
  List.Forall₂ (fun e e' => e.1 = e'.1 ∧ R e.2 e'.2) d.entries d'.entries

theorem lookup_matches {es : List (κ × ν)} {es' : List (κ × ω)}
    (h : List.Forall₂ (fun e e' => e.1 = e'.1 ∧ R e.2 e'.2) es es') (k : κ) :
    (es.lookup k = none ∧ es'.lookup k = none) ∨
      ∃ v w, es.lookup k = some v ∧ es'.lookup k = some w ∧ R v w := by
  induction h with
  | nil => exact .inl ⟨rfl, rfl⟩
  | @cons e e' es es' he _ ih =>
    obtain ⟨k₀, v₀⟩ := e
    obtain ⟨k₀', w₀⟩ := e'
    obtain ⟨hkey, hvalue⟩ := he
    obtain rfl : k₀ = k₀' := hkey
    rw [List.lookup_cons, List.lookup_cons]
    by_cases hk : k = k₀
    · have hb : (k == k₀) = true := by simpa using hk
      rw [hb]
      exact .inr ⟨v₀, w₀, rfl, rfl, hvalue⟩
    · have hb : (k == k₀) = false := by simpa using hk
      rw [hb]
      exact ih

theorem Matches.get (h : Matches R d d') (k : κ) : (d.get k = none ∧ d'.get k = none) ∨
    ∃ v w, d.get k = some v ∧ d'.get k = some w ∧ R v w :=
  lookup_matches h k

theorem Matches.erase (h : Matches R d d') (k : κ) : Matches R (d.erase k) (d'.erase k) := by
  refine List.rel_filter ?_ h
  intro e e' he
  show decide (e.1 ≠ k) = true ↔ decide (e'.1 ≠ k) = true
  rw [he.1]

omit [DecidableEq κ] in
/-- A test that related values pass alike picks the same keys. -/
theorem Matches.keys_filter {p : κ × ν → Bool} {q : κ × ω → Bool} (h : Matches R d d')
    (htest : ∀ k v w, R v w → p (k, v) = q (k, w)) :
    (d.entries.filter p).map Prod.fst = (d'.entries.filter q).map Prod.fst := by
  unfold Matches at h
  generalize d.entries = es at h
  generalize d'.entries = es' at h
  induction h with
  | nil => rfl
  | @cons e e' es es' he _ ih =>
    obtain ⟨k, v⟩ := e
    obtain ⟨k', w⟩ := e'
    obtain ⟨hkey, hvalue⟩ := he
    obtain rfl : k = k' := hkey
    rw [List.filter_cons, List.filter_cons, htest k v w hvalue]
    split_ifs
    · rw [List.map_cons, List.map_cons, ih]
    · exact ih

theorem Matches.set (h : Matches R d d') (hnew : d.get k = none) (hnew' : d'.get k = none)
    (hvalue : R v w) : Matches R (d.set k v) (d'.set k w) := by
  unfold Matches
  rw [entries_set hnew, entries_set hnew']
  exact List.rel_append h (.cons ⟨rfl, hvalue⟩ .nil)

theorem Matches.change (h : Matches R d d') (hget : d.get k = some v)
    (hothers : ∀ e ∈ d.entries, e.1 ≠ k → ∀ w, R e.2 w → R' e.2 w) (hvalue : R' v w) :
    Matches R' d (d'.set k w) := by
  have hkey : k ∈ d'.keys := by
    rcases h.get k with ⟨hnone, -⟩ | ⟨-, w₀, -, hsome, -⟩
    · rw [hget] at hnone
      cases hnone
    · exact List.mem_map.mpr ⟨_, get_eq_some.mp hsome, rfl⟩
  have hentries : (d'.set k w).entries = d'.replaced k w := by rw [Dict.set, dif_pos hkey]
  have hone : ∀ e ∈ d.entries, e.1 = k → e.2 = v := by
    intro e he hk
    have hsame := get_eq_some.mpr he
    rw [hk, hget] at hsame
    exact (Option.some.inj hsame).symm
  unfold Matches at h ⊢
  rw [hentries, replaced, List.forall₂_map_right_iff]
  clear hget hkey hentries
  generalize d.entries = es at h hothers hone
  generalize d'.entries = es' at h
  induction h with
  | nil => exact .nil
  | @cons e e' es es' he _ ih =>
    have hrest := ih (fun x hx => hothers x (List.mem_cons_of_mem _ hx))
      fun x hx => hone x (List.mem_cons_of_mem _ hx)
    refine .cons ?_ hrest
    by_cases hk : e'.1 = k
    · rw [if_pos hk]
      have hk' : e.1 = k := he.1.trans hk
      rw [hone e List.mem_cons_self hk']
      exact ⟨hk', hvalue⟩
    · rw [if_neg hk]
      have hk' : e.1 ≠ k := fun hsame => hk (he.1.symm.trans hsame)
      exact ⟨he.1, hothers e List.mem_cons_self hk' _ he.2⟩

omit [DecidableEq κ] in
theorem Matches.imp (h : Matches R d d') (himp : ∀ v w, R v w → R' v w) : Matches R' d d' :=
  List.Forall₂.imp (fun _ _ he => ⟨he.1, himp _ _ he.2⟩) h

end matching

end Dict

end WappPlanner.Lib
