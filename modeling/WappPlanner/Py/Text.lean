import WappPlanner.Errors
import WappPlanner.Py.Values

/-! # Python text

`str()` and `json.dumps()` of a decoded JSON value, `int()` of a string, the number formats of
f-strings, ISO timestamps and hexadecimal digests. What needs the Unicode database or the shortest-digits
algorithm of `repr(float)` takes it from `Tables`. -/

namespace WappPlanner.Py.Text

open WappPlanner.Errors WappPlanner.Py.Values

/-- The interpreter's tables: which characters `repr` prints as they are, which are white space or
decimal digits, and `repr` of a float. -/
structure Tables where
  printable : Char → Bool
  space : Char → Bool
  decimal : Char → Option ℕ
  floatRepr : PyFloat → String

/-! ### Integers in text -/

def natText (n : ℕ) : String := toString n

def intText (n : ℤ) : String :=
  if n < 0 then "-" ++ natText n.natAbs else natText n.natAbs

/-- `n` with at least `width` digits. -/
def padded (width n : ℕ) : String :=
  String.ofList (List.replicate (width - (natText n).length) '0') ++ natText n

/-- Digits separated by single underscores, after at least one digit. -/
def digitsAfter (T : Tables) : ℕ → List Char → Option ℕ
  | acc, [] => some acc
  | acc, '_' :: c :: cs => do digitsAfter T (10 * acc + (← T.decimal c)) cs
  | acc, c :: cs => do digitsAfter T (10 * acc + (← T.decimal c)) cs

def digits (T : Tables) : List Char → Option ℕ
  | [] => none
  | c :: cs => do digitsAfter T (← T.decimal c) cs

/-- `int(s)`, `none` where it raises `ValueError`. -/
def intOfText (T : Tables) (s : String) : Option ℤ :=
  let stripped := ((s.toList.dropWhile T.space).reverse.dropWhile T.space).reverse
  match stripped with
  | '-' :: cs => (digits T cs).map fun n => -(n : ℤ)
  | '+' :: cs => (digits T cs).map fun n => (n : ℤ)
  | cs => (digits T cs).map fun n => (n : ℤ)

/-! ### `repr` and `str` -/

def hexDigit (n : ℕ) : Char :=
  if n < 10 then Char.ofNat (48 + n) else Char.ofNat (87 + n)

/-- `n` in hexadecimal, `width` digits. -/
def hexText : (width : ℕ) → ℕ → List Char
  | 0, _ => []
  | w + 1, n => hexText w (n / 16) ++ [hexDigit (n % 16)]

/-- One character inside `repr` of a string quoted with `quote`. -/
def reprChar (T : Tables) (quote c : Char) : List Char :=
  if c = quote ∨ c = '\\' then ['\\', c]
  else if c = '\n' then ['\\', 'n']
  else if c = '\r' then ['\\', 'r']
  else if c = '\t' then ['\\', 't']
  else if T.printable c then [c]
  else if c.toNat < 0x100 then ['\\', 'x'] ++ hexText 2 c.toNat
  else if c.toNat < 0x10000 then ['\\', 'u'] ++ hexText 4 c.toNat
  else ['\\', 'U'] ++ hexText 8 c.toNat

/-- `repr` of a string: single quotes, unless only double quotes avoid an escape. -/
def reprText (T : Tables) (s : String) : String :=
  let quote := if s.toList.contains '\'' && !s.toList.contains '"' then '"' else '\''
  String.ofList ([quote] ++ s.toList.flatMap (reprChar T quote) ++ [quote])

mutual

/-- `repr` of a decoded JSON value. -/
def repr (T : Tables) : Json → String
  | .null => "None"
  | .bool b => if b then "True" else "False"
  | .int n => intText n
  | .float x => T.floatRepr x
  | .str s => reprText T s
  | .arr items => "[" ++ reprItems T items ++ "]"
  | .obj fields => "\x7b" ++ reprFields T fields ++ "\x7d"

def reprItems (T : Tables) : List Json → String
  | [] => ""
  | [x] => repr T x
  | x :: y :: rest => repr T x ++ ", " ++ reprItems T (y :: rest)

def reprFields (T : Tables) : List (String × Json) → String
  | [] => ""
  | [(k, x)] => reprText T k ++ ": " ++ repr T x
  | (k, x) :: y :: rest => reprText T k ++ ": " ++ repr T x ++ ", " ++ reprFields T (y :: rest)

end

/-- `str` of a decoded JSON value. -/
def str (T : Tables) : Json → String
  | .str s => s
  | x => repr T x

/-! ### `json.dumps` -/

/-- One character inside a JSON string: in ASCII, what is not in UTF-16 code units. -/
def dumpsChar (c : Char) : List Char :=
  if c = '"' ∨ c = '\\' then ['\\', c]
  else if c = '\n' then ['\\', 'n']
  else if c = '\r' then ['\\', 'r']
  else if c = '\t' then ['\\', 't']
  else if c.toNat = 8 then ['\\', 'b']
  else if c.toNat = 12 then ['\\', 'f']
  else if 32 ≤ c.toNat ∧ c.toNat < 127 then [c]
  else if c.toNat < 0x10000 then ['\\', 'u'] ++ hexText 4 c.toNat
  else
    let n := c.toNat - 0x10000
    ['\\', 'u'] ++ hexText 4 (0xd800 + n / 0x400) ++ ['\\', 'u'] ++ hexText 4 (0xdc00 + n % 0x400)

def dumpsText (s : String) : String := "\"" ++ String.ofList (s.toList.flatMap dumpsChar) ++ "\""

def dumpsFloat (floatRepr : PyFloat → String) : PyFloat → String
  | .nan => "NaN"
  | .inf negative => if negative then "-Infinity" else "Infinity"
  | x => floatRepr x

mutual

/-- `json.dumps` of a decoded JSON value. -/
def dumps (floatRepr : PyFloat → String) : Json → String
  | .null => "null"
  | .bool b => if b then "true" else "false"
  | .int n => intText n
  | .float x => dumpsFloat floatRepr x
  | .str s => dumpsText s
  | .arr items => "[" ++ dumpsItems floatRepr items ++ "]"
  | .obj fields => "\x7b" ++ dumpsFields floatRepr fields ++ "\x7d"

def dumpsItems (floatRepr : PyFloat → String) : List Json → String
  | [] => ""
  | [x] => dumps floatRepr x
  | x :: y :: rest => dumps floatRepr x ++ ", " ++ dumpsItems floatRepr (y :: rest)

def dumpsFields (floatRepr : PyFloat → String) : List (String × Json) → String
  | [] => ""
  | [(k, x)] => dumpsText k ++ ": " ++ dumps floatRepr x
  | (k, x) :: y :: rest =>
    dumpsText k ++ ": " ++ dumps floatRepr x ++ ", " ++ dumpsFields floatRepr (y :: rest)

end

theorem length_le_dumpsText (s : String) : s.length ≤ (dumpsText s).length := by
  have hchar : ∀ c, 1 ≤ (dumpsChar c).length := by
    intro c
    unfold dumpsChar
    split_ifs <;> simp
  have hchars : ∀ cs : List Char, cs.length ≤ (cs.flatMap dumpsChar).length := by
    intro cs
    induction cs with
    | nil => exact le_rfl
    | cons c cs ih =>
      have h := hchar c
      rw [List.flatMap_cons, List.length_append, List.length_cons]
      omega
  have h := hchars s.toList
  simp only [dumpsText, String.length_append, String.length_ofList, String.length_toList] at h ⊢
  omega

/-! ### Number formats -/

/-- `n / d` rounded to the nearest integer, halves to even. -/
def roundHalfEven (n d : ℕ) : ℕ :=
  let q := n / d
  let r := n % d
  if 2 * r < d then q else if d < 2 * r then q + 1 else if q % 2 = 0 then q else q + 1

/-- A list of digits without its trailing zeros. -/
def stripZeros (cs : List Char) : List Char := (cs.reverse.dropWhile (· = '0')).reverse

/-- Digits before and after the point, without trailing zeros and without a bare point. -/
def pointed (whole frac : List Char) : String :=
  match stripZeros frac with
  | [] => String.ofList whole
  | frac => String.ofList (whole ++ '.' :: frac)

/-- The decimal exponent of `n / d > 0`: the largest `e` with `10 ^ e ≤ n / d`. -/
def exponent (n d : ℕ) : ℤ :=
  if d ≤ n then ((natText (n / d)).length - 1 : ℕ)
  else -((natText ((d + n - 1) / n - 1)).length : ℕ)

/-- `n / d` times `10 ^ k`, rounded. -/
def scaled (n d : ℕ) (k : ℤ) : ℕ :=
  if 0 ≤ k then roundHalfEven (n * 10 ^ k.toNat) d else roundHalfEven n (d * 10 ^ (-k).toNat)

/-- `f"{x:g}"` for a number that is at least `0`: six significant digits, exponent form from `10^6`
on and below `10^-4`. -/
def formatG : Amount → String
  | .inf => "inf"
  | .negZero => "-0"
  | .finite q =>
    if q.num = 0 then "0"
    else
      let e₀ := exponent q.num q.den
      let m₀ := scaled q.num q.den (5 - e₀)
      -- rounding up to seven digits moves the exponent
      let (m, e) := if m₀ = 10 ^ 6 then (10 ^ 5, e₀ + 1) else (m₀, e₀)
      let ds := (natText m).toList
      if -4 ≤ e ∧ e < 6 then
        if 0 ≤ e then pointed (ds.take (e.toNat + 1)) (ds.drop (e.toNat + 1))
        else pointed ['0'] (List.replicate ((-e).toNat - 1) '0' ++ ds)
      else
        pointed (ds.take 1) (ds.drop 1) ++ "e" ++ (if e < 0 then "-" else "+") ++ padded 2 e.natAbs

/-- Digits in groups of three, from the right; the argument is reversed. -/
def grouped : List Char → List Char
  | a :: b :: c :: d :: rest => a :: b :: c :: ',' :: grouped (d :: rest)
  | cs => cs

/-- `f"{x:,.2f}"`. -/
def formatCents : Amount → String
  | .inf => "inf"
  | .negZero => "-0.00"
  | .finite q =>
    let cents := roundHalfEven (100 * q.num) q.den
    String.ofList (grouped (natText (cents / 100)).toList.reverse).reverse ++ "." ++
      padded 2 (cents % 100)

/-- The binary exponent of `n / d > 0`: the largest `e` with `2 ^ e ≤ n / d`. -/
def binaryExponent (n d : ℕ) : ℤ :=
  if d ≤ n then (n / d).log2 else -((((d + n - 1) / n - 1).log2 + 1 : ℕ) : ℤ)

/-- The double nearest to `n / d`, halves to even; it keeps 53 bits, and none below `2^-1074`. -/
def double (n d : ℕ) : ℚ≥0 :=
  let e := max (-1074) (binaryExponent n d - 52)
  if 0 ≤ e then (roundHalfEven n (d * 2 ^ e.toNat) * 2 ^ e.toNat : ℕ)
  else NNRat.divNat (roundHalfEven (n * 2 ^ (-e).toNat) d) (2 ^ (-e).toNat)

/-- `f"{x:.0%}"`, which prints the double nearest to `100 * x`. -/
def formatPercent (x : Fraction) : String :=
  let percent := double (100 * x.val.num) x.val.den
  (if x.negative then "-" else "") ++ natText (roundHalfEven percent.num percent.den) ++ "%"

-- the float 0.435 is a little less, and 43.5 the double nearest to 100 times that
example : formatPercent ⟨NNRat.divNat 7836263351624663 (2 ^ 54), by decide +kernel, false, by decide⟩ =
    "44%" := by decide +kernel

/-! ### Timestamps -/

/-- An instant: microseconds since the epoch, UTC. -/
abbrev Instant := ℤ

/-- Microseconds of a number of seconds. -/
def seconds (n : ℤ) : ℤ := 1000000 * n

/-- Year, month and day of a day number counted from the epoch. -/
def civil (day : ℤ) : ℤ × ℕ × ℕ :=
  let z := day + 719468
  let era := z / 146097
  let doe := (z % 146097).toNat
  let yoe := (doe - doe / 1460 + doe / 36524 - doe / 146096) / 365
  let doy := doe - (365 * yoe + yoe / 4 - yoe / 100)
  let mp := (5 * doy + 2) / 153
  let month := if mp < 10 then mp + 3 else mp - 9
  (era * 400 + yoe + (if month ≤ 2 then 1 else 0), month, doy - (153 * mp + 2) / 5 + 1)

/-- `datetime.isoformat()` of a UTC instant. -/
def isoformat (t : Instant) : String :=
  let sec := t / 1000000
  let micro := (t % 1000000).toNat
  let (year, month, day) := civil (sec / 86400)
  let s := (sec % 86400).toNat
  padded 4 year.toNat ++ "-" ++ padded 2 month ++ "-" ++ padded 2 day ++ "T" ++
    padded 2 (s / 3600) ++ ":" ++ padded 2 (s / 60 % 60) ++ ":" ++ padded 2 (s % 60) ++
    (if micro = 0 then "" else "." ++ padded 6 micro) ++ "+00:00"

example : isoformat (seconds 1781179200) = "2026-06-11T12:00:00+00:00" := by decide

/-! ### Digests -/

/-- `bytes.hex()`. -/
def hex (b : Bytes) : String := String.ofList (b.flatMap fun x => hexText 2 x.toNat)

/-- `hmac.compare_digest` on strings, which must be ASCII. -/
def compareDigest (a b : String) : Except Exn Bool :=
  if a.toList.all (·.toNat < 128) && b.toList.all (·.toNat < 128) then .ok (a = b)
  else .error (.typeError "comparing strings with non-ASCII characters is not supported")

end WappPlanner.Py.Text
