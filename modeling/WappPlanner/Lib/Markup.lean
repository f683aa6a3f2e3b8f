import Mathlib.Tactic.Common

/-! # Text in markup

The three characters to which markup gives a meaning, replaced one after the other by entities
(`escape`), and the entities read back (`unescape`). An escaped text has no tag in it
(`escape_ne_lt`) and stands for the text it was made of (`unescape_escape`). -/

namespace WappPlanner.Lib.Markup

variable {c d : Char} {cs ds : List Char}

def amp : List Char := ['&', 'a', 'm', 'p', ';']

def gt : List Char := ['&', 'g', 't', ';']

def lt : List Char := ['&', 'l', 't', ';']

/-- Every `c` replaced. -/
def replace (c : Char) (by_ : List Char) (cs : List Char) : List Char :=
  cs.flatMap fun d => if d = c then by_ else [d]

/-- The ampersand goes first, since the entities have one. -/
def escape (cs : List Char) : List Char :=
  replace '<' lt (replace '>' gt (replace '&' amp cs))

def unescape : List Char → List Char
  | '&' :: 'a' :: 'm' :: 'p' :: ';' :: cs => '&' :: unescape cs
  | '&' :: 'g' :: 't' :: ';' :: cs => '>' :: unescape cs
  | '&' :: 'l' :: 't' :: ';' :: cs => '<' :: unescape cs
  | c :: cs => c :: unescape cs
  | [] => []

/-- What stands for a character. -/
def entity (c : Char) : List Char :=
  if c = '&' then amp else if c = '>' then gt else if c = '<' then lt else [c]

theorem replace_append (c : Char) (by_ cs ds : List Char) :
    replace c by_ (cs ++ ds) = replace c by_ cs ++ replace c by_ ds := List.flatMap_append

theorem escape_cons (c : Char) (cs : List Char) : escape (c :: cs) = entity c ++ escape cs := by
  have hsplit : ∀ e cs, replace '&' amp (e :: cs) =
      (if e = '&' then amp else [e]) ++ replace '&' amp cs := fun _ _ => List.flatMap_cons
  unfold escape
  rw [hsplit, replace_append, replace_append]
  congr 1
  unfold entity
  split_ifs with hamp hgt hlt
  · decide
  · subst hgt
    decide
  · subst hlt
    decide
  · simp [replace, hgt, hlt]

theorem escape_eq (cs : List Char) : escape cs = cs.flatMap entity := by
  induction cs with
  | nil => rfl
  | cons c cs ih => rw [escape_cons, ih, List.flatMap_cons]

/-- **An escaped text has no tag in it.** -/
theorem escape_ne_lt (hd : d ∈ escape cs) : d ≠ '<' := by
  rw [escape_eq, List.mem_flatMap] at hd
  obtain ⟨c, -, hd⟩ := hd
  rintro rfl
  unfold entity at hd
  split_ifs at hd with hamp hgt hlt
  · revert hd
    decide
  · revert hd
    decide
  · revert hd
    decide
  · exact hlt (List.mem_singleton.mp hd).symm

theorem unescape_cons (hc : c ≠ '&') (cs : List Char) :
    unescape (c :: cs) = c :: unescape cs := by
  rw [unescape]
  all_goals
    intros
    simp_all

theorem unescape_entity (c : Char) (cs : List Char) :
    unescape (entity c ++ cs) = c :: unescape cs := by
  unfold entity
  split_ifs with hamp hgt hlt
  · rw [hamp]
    rfl
  · rw [hgt]
    rfl
  · rw [hlt]
    rfl
  · exact unescape_cons hamp cs

/-- **An escaped text stands for the text it was made of.** -/
theorem unescape_escape (cs : List Char) : unescape (escape cs) = cs := by
  induction cs with
  | nil => rfl
  | cons c cs ih => rw [escape_cons, unescape_entity, ih]

end WappPlanner.Lib.Markup
