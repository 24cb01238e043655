import Cartridge.Config.Value

/-!
# The lexical grammar of configurations

Blanks, line ends and comments; the four kinds of quoted texts; keys; and
numbers. Each reader gives nothing where the characters do not fit.
-/
namespace Cartridge.Config

/-- Blanks and tabs separate words on a line. -/
def isBlank (c : Char) : Bool := c == ' ' || c == '\t'

/-- Characters other than controls; a tab is allowed. -/
def isPlain (c : Char) : Bool :=
  c == '\t' || (0x20 ≤ c.toNat && c.toNat ≤ 0x7E) || 0x80 ≤ c.toNat

def skipBlanks (cs : List Char) : List Char := cs.dropWhile isBlank

/-- What follows a line end. -/
def afterNewline? : List Char → Option (List Char)
  | '\n' :: rest => some rest
  | '\r' :: '\n' :: rest => some rest
  | _ => none

def skipSpace : List Char → List Char
  | '\r' :: '\n' :: rest => skipSpace rest
  | c :: rest => if isBlank c || c == '\n' then skipSpace rest else c :: rest
  | [] => []

theorem length_skipSpace_le (cs : List Char) : (skipSpace cs).length ≤ cs.length := by
  fun_induction skipSpace cs with
  | case1 rest ih =>
    simp only [List.length_cons]
    omega
  | case2 c rest _ _ ih =>
    simp only [List.length_cons]
    omega
  | case3 => exact Nat.le_refl _
  | case4 => exact Nat.le_refl _

theorem length_afterNewline?_lt {cs rest : List Char} (h : afterNewline? cs = some rest) :
    rest.length < cs.length := by
  unfold afterNewline? at h
  split at h <;> cases h <;> simp only [List.length_cons] <;> omega

def skipComment : List Char → List Char
  | '#' :: rest => rest.dropWhile isPlain
  | cs => cs

/-- What follows the rest of a line that holds nothing but a comment. -/
def afterLine? (cs : List Char) : Option (List Char) :=
  match skipComment (skipBlanks cs) with
  | [] => some []
  | cs => afterNewline? cs

theorem length_skipComment_le (cs : List Char) : (skipComment cs).length ≤ cs.length := by
  unfold skipComment
  split
  · exact Nat.le_succ_of_le (List.dropWhile_sublist _).length_le
  · exact Nat.le_refl _

/-- Skips blanks, line ends, and comments that end with their line. -/
def skipTrivia (cs : List Char) : List Char :=
  match _h : afterNewline? (skipComment (skipSpace cs)) with
  | some rest => skipTrivia rest
  | none => skipSpace cs
termination_by cs.length
decreasing_by
  have h1 := length_afterNewline?_lt _h
  have h2 := length_skipComment_le (skipSpace cs)
  have h3 := length_skipSpace_le cs
  omega

/-- The character whose code point `n` hexadecimal digits spell. -/
def codePoint? (n : Nat) (cs : List Char) : Option Char :=
  let digits := cs.take n
  if digits.length = n then
    match Numeral.readUnsigned? 16 digits with
    | some code => if code.isValidChar then some (Char.ofNat code) else none
    | none => none
  else none

/-- The character that an escape stands for, and the number of its characters
behind the backslash. -/
def escape? : List Char → Option (Char × Nat)
  | 'b' :: _ => some ('\x08', 1)
  | 't' :: _ => some ('\t', 1)
  | 'n' :: _ => some ('\n', 1)
  | 'f' :: _ => some ('\x0c', 1)
  | 'r' :: _ => some ('\r', 1)
  | '"' :: _ => some ('"', 1)
  | '\\' :: _ => some ('\\', 1)
  | 'u' :: rest => (codePoint? 4 rest).map (·, 5)
  | 'U' :: rest => (codePoint? 8 rest).map (·, 9)
  | _ => none

/-- Reads a text up to a quote. The characters before are in `done`, last first. -/
def basicText (done : List Char) (cs : List Char) : Option (String × List Char) :=
  match cs with
  | [] => none
  | '"' :: rest => some (String.ofList done.reverse, rest)
  | '\\' :: rest =>
    match escape? rest with
    | some (c, n) => basicText (c :: done) (rest.drop n)
    | none => none
  | c :: rest => if isPlain c then basicText (c :: done) rest else none
termination_by cs.length
decreasing_by
  all_goals simp only [List.length_cons, List.length_drop]
  all_goals omega

/-- What follows a backslash at the end of a line: the line end and all space
behind it are left out. -/
def afterContinuation? (cs : List Char) : Option (List Char) :=
  (afterNewline? (skipBlanks cs)).map skipSpace

theorem length_skipBlanks_le (cs : List Char) : (skipBlanks cs).length ≤ cs.length :=
  (List.dropWhile_sublist _).length_le

theorem length_afterContinuation?_lt {cs rest : List Char}
    (h : afterContinuation? cs = some rest) : rest.length < cs.length := by
  unfold afterContinuation? at h
  obtain ⟨line, hline, rfl⟩ := Option.map_eq_some_iff.1 h
  have h1 := length_afterNewline?_lt hline
  have h2 := length_skipSpace_le line
  have h3 := length_skipBlanks_le cs
  omega

/-- Reads a text of several lines up to three quotes, before which one or two
quotes more can stand. -/
def basicLines (done : List Char) (cs : List Char) : Option (String × List Char) :=
  match cs with
  | [] => none
  | '"' :: rest =>
    let more := (rest.takeWhile (· == '"')).length
    if more ≤ 1 then basicLines (List.replicate (more + 1) '"' ++ done) (rest.drop more)
    else if more ≤ 4 then
      some (String.ofList (List.replicate (more - 2) '"' ++ done).reverse, rest.drop more)
    else none
  | '\\' :: rest =>
    match _h : afterContinuation? rest with
    | some rest => basicLines done rest
    | none =>
      match escape? rest with
      | some (c, n) => basicLines (c :: done) (rest.drop n)
      | none => none
  | '\r' :: '\n' :: rest => basicLines ('\n' :: done) rest
  | c :: rest => if isPlain c || c == '\n' then basicLines (c :: done) rest else none
termination_by cs.length
decreasing_by
  all_goals try have := length_afterContinuation?_lt _h
  all_goals simp only [List.length_cons, List.length_drop]
  all_goals omega

/-- Reads a text without escapes up to an apostrophe. -/
def literalText (cs : List Char) : Option (String × List Char) :=
  let isText (c : Char) := isPlain c && c != '\''
  match cs.dropWhile isText with
  | '\'' :: rest => some (String.ofList (cs.takeWhile isText), rest)
  | _ => none

/-- Reads a text of several lines without escapes up to three apostrophes, before
which one or two more can stand. -/
def literalLines (done : List Char) (cs : List Char) : Option (String × List Char) :=
  match cs with
  | [] => none
  | '\'' :: rest =>
    let more := (rest.takeWhile (· == '\'')).length
    if more ≤ 1 then literalLines (List.replicate (more + 1) '\'' ++ done) (rest.drop more)
    else if more ≤ 4 then
      some (String.ofList (List.replicate (more - 2) '\'' ++ done).reverse, rest.drop more)
    else none
  | '\r' :: '\n' :: rest => literalLines ('\n' :: done) rest
  | c :: rest => if isPlain c || c == '\n' then literalLines (c :: done) rest else none
termination_by cs.length
decreasing_by
  all_goals simp only [List.length_cons, List.length_drop]
  all_goals omega

/-- The characters without a line end at the front. -/
def dropNewline (cs : List Char) : List Char := (afterNewline? cs).getD cs

/-- Reads a quoted text of any kind. -/
def quoted : Reader String
  | '"' :: '"' :: '"' :: rest => basicLines [] (dropNewline rest)
  | '"' :: rest => basicText [] rest
  | '\'' :: '\'' :: '\'' :: rest => literalLines [] (dropNewline rest)
  | '\'' :: rest => literalText rest
  | _ => none

/-- Characters of a key without quotes. -/
def isBare (c : Char) : Bool := c.isAlphanum || c == '_' || c == '-'

/-- Reads one part of a key. -/
def keyPart : Reader String
  | '"' :: rest => basicText [] rest
  | '\'' :: rest => literalText rest
  | cs =>
    let word := cs.takeWhile isBare
    if word.isEmpty then none else some (String.ofList word, cs.dropWhile isBare)

/-- Reads the parts of a key, between dots. -/
def keyParts : Nat → Reader (List String)
  | 0, _ => none
  | fuel + 1, cs => do
    let (part, cs) ← keyPart (skipBlanks cs)
    match skipBlanks cs with
    | '.' :: rest =>
      let (parts, rest) ← keyParts fuel rest
      some (part :: parts, rest)
    | rest => some ([part], rest)

def maxKeyParts : Nat := 79

/-- Reads a key and the blanks around it. -/
def key : Reader (List String) := keyParts maxKeyParts

/-- The digits that go on a run, where single underscores stand between digits. -/
def moreDigits (isDigit : Char → Bool) (done : List Char) : List Char → List Char × List Char
  | [] => (done.reverse, [])
  | '_' :: c :: rest =>
    if isDigit c then moreDigits isDigit (c :: done) rest else (done.reverse, '_' :: c :: rest)
  | c :: rest =>
    if isDigit c then moreDigits isDigit (c :: done) rest else (done.reverse, c :: rest)

def digits (isDigit : Char → Bool) : Reader (List Char)
  | c :: rest => if isDigit c then some (moreDigits isDigit [c] rest) else none
  | [] => none

/-- Reads decimal digits of which the first is no zero, or a zero alone. -/
def wholeDigits : Reader (List Char)
  | '0' :: rest => some (['0'], rest)
  | cs => digits Char.isDigit cs

def valueOf (base : Nat) (ds : List Char) : Nat := (Numeral.readDigits? base 0 ds).getD 0

/-- Reads a sign; a plus means nothing. -/
def sign : List Char → Bool × List Char
  | '-' :: rest => (true, rest)
  | '+' :: rest => (false, rest)
  | cs => (false, cs)

def exponent : Reader Int
  | 'e' :: rest | 'E' :: rest => do
    let (negative, rest) := sign rest
    let (ds, rest) ← digits Char.isDigit rest
    let n : Int := valueOf 10 ds
    some (if negative then -n else n, rest)
  | _ => none

/-- A float, which must not be beyond the greatest number. -/
def floatOf (negative : Bool) (ds : List Char) (power : Int) : Option Value :=
  match Binary64.ofDecimal negative (valueOf 10 ds) power with
  | .infinity false => none
  | x => some (.float x)

/-- An integer of 64 bits. -/
def integerOf (negative : Bool) (n : Nat) : Option Value :=
  let i : Int := if negative then -n else n
  if -2 ^ 63 ≤ i ∧ i < 2 ^ 63 then some (.integer i) else none

/-- Reads a decimal integer or a float behind its sign. -/
def decimal (negative : Bool) : Reader Value
  | 'i' :: 'n' :: 'f' :: rest => some (.float (.infinity negative), rest)
  | 'n' :: 'a' :: 'n' :: rest => some (.float .nan, rest)
  | cs => do
    let (whole, cs) ← wholeDigits cs
    match cs with
    | '.' :: rest =>
      let (fraction, rest) ← digits Char.isDigit rest
      let (power, rest) := (exponent rest).getD (0, rest)
      let value ← floatOf negative (whole ++ fraction) (power - fraction.length)
      some (value, rest)
    | cs =>
      match exponent cs with
      | some (power, rest) =>
        let value ← floatOf negative whole power
        some (value, rest)
      | none =>
        let value ← integerOf negative (valueOf 10 whole)
        some (value, cs)

/-- Reads an integer in a base that is a power of two, behind its mark. -/
def based (base : Nat) : Reader Value := fun cs => do
  let (ds, rest) ← digits (fun c => (Numeral.digitValue? base c).isSome) cs
  let value ← integerOf false (valueOf base ds)
  some (value, rest)

def number : Reader Value
  | '0' :: 'x' :: rest => based 16 rest
  | '0' :: 'o' :: rest => based 8 rest
  | '0' :: 'b' :: rest => based 2 rest
  | cs =>
    let (negative, rest) := sign cs
    decimal negative rest

def scalar : Reader Value
  | 't' :: 'r' :: 'u' :: 'e' :: rest => some (.boolean true, rest)
  | 'f' :: 'a' :: 'l' :: 's' :: 'e' :: rest => some (.boolean false, rest)
  | '"' :: rest => (quoted ('"' :: rest)).map fun (text, rest) => (.string text, rest)
  | '\'' :: rest => (quoted ('\'' :: rest)).map fun (text, rest) => (.string text, rest)
  | cs =>
    match Datetime.read cs with
    | some (d, rest) => some (.datetime d, rest)
    | none => number cs

end Cartridge.Config
