import AmbientCatalog.Hex
import AmbientCatalog.Syntax.Declarations
import AmbientCatalog.Syntax.Letter

/-!
# Tokens

The scanner reads one token at a time from a list of characters and reports how many characters
it takes. Words are not split into names and keywords, since most keywords of declaration files
are also names. The signs `<` and `>` are never joined to one another, because they also close and
open lists of types; an expression joins them again. Regular expressions and the inside of
templates are scanned on request, where the grammar expects them.

Text that is no token is scanned as `invalid`, which no rule of the grammar takes.
-/

set_option autoImplicit false

namespace AmbientCatalog.Syntax

inductive Token where
  | word (name : String)
  | privateName
  | string
  | number
  | sign (text : String)
  | stop
  | invalid
  deriving DecidableEq, Repr

structure Mark where
  offset : Nat
  line : Nat
  column : Nat
  deriving DecidableEq, Repr

namespace Mark

def origin : Mark := ⟨0, 1, 1⟩

def next (m : Mark) (c : Char) : Mark :=
  if c = '\n' then ⟨m.offset + 1, m.line + 1, 1⟩
  -- A tab is two columns wide.
  else if c = '\t' then ⟨m.offset + 1, m.line, m.column + 2⟩
  else ⟨m.offset + 1, m.line, m.column + 1⟩

def past (m : Mark) (cs : List Char) : Mark := cs.foldl next m

def position (m : Mark) : Position := ⟨m.line, m.column⟩

end Mark

def isLineEnd (c : Char) : Bool :=
  c = '\n' || c = '\r' || c.toNat = 0x2028 || c.toNat = 0x2029

def isSpace (c : Char) : Bool :=
  c = ' ' || c = '\t' || c.toNat = 0x0B || c.toNat = 0x0C || c.toNat = 0xA0 || c.toNat = 0xFEFF
    || c.toNat = 0x1680 || (0x2000 ≤ c.toNat && c.toNat ≤ 0x200A) || c.toNat = 0x202F
    || c.toNat = 0x205F || c.toNat = 0x3000

inductive Gap where
  | blank
  | lineComment
  | blockComment
  deriving DecidableEq

structure Lead where
  text : List Char
  mark : Mark
  newline : Bool
  closed : Bool

def skipGap : Gap → Mark → Bool → List Char → Lead
  | gap, m, newline, [] => ⟨[], m, newline, gap ≠ .blockComment⟩
  | .blank, m, newline, '/' :: '/' :: cs =>
    skipGap .lineComment ((m.next '/').next '/') newline cs
  | .blank, m, newline, '/' :: '*' :: cs =>
    skipGap .blockComment ((m.next '/').next '*') newline cs
  | .blank, m, newline, c :: cs =>
    if isLineEnd c then skipGap .blank (m.next c) true cs
    else if isSpace c then skipGap .blank (m.next c) newline cs
    else ⟨c :: cs, m, newline, true⟩
  | .lineComment, m, newline, c :: cs =>
    if isLineEnd c then skipGap .blank (m.next c) true cs
    else skipGap .lineComment (m.next c) newline cs
  | .blockComment, m, newline, '*' :: '/' :: cs =>
    skipGap .blank ((m.next '*').next '/') newline cs
  | .blockComment, m, newline, c :: cs =>
    skipGap .blockComment (m.next c) (newline || isLineEnd c) cs

def wordChars : Option Nat → List Char → Option (List Char × Nat)
  | none, [] => some ([], 0)
  | none, '\\' :: 'u' :: '{' :: cs => (wordChars (some 0) cs).map (fun read => (read.1, read.2 + 3))
  | none, '\\' :: 'u' :: a :: b :: c :: d :: cs =>
    match Hex.ofDigits? [a, b, c, d] with
    | none => none
    | some n => (wordChars none cs).map (fun read => (Char.ofNat n :: read.1, read.2 + 6))
  | none, c :: cs =>
    if c = '\\' then none
    else if Letter.isContinue c then
      (wordChars none cs).map (fun read => (c :: read.1, read.2 + 1))
    else some ([], 0)
  | some _, [] => none
  | some n, c :: cs =>
    if c = '}' then (wordChars none cs).map (fun read => (Char.ofNat n :: read.1, read.2 + 1))
    else
      match Hex.value? c with
      | none => none
      | some d => (wordChars (some (n * 16 + d)) cs).map (fun read => (read.1, read.2 + 1))

def startsWord : List Char → Bool
  | c :: _ => Letter.isStart c
  | [] => false

def scanWord (cs : List Char) : Option (String × Nat) := do
  let (chars, count) ← wordChars none cs
  if startsWord chars && chars.all Letter.isContinue then some (String.ofList chars, count)
  else none

def stringLength (quote : Char) : List Char → Option Nat
  | [] => none
  | '\\' :: '\r' :: '\n' :: cs => (stringLength quote cs).map (· + 3)
  | '\\' :: _ :: cs => (stringLength quote cs).map (· + 2)
  | c :: cs =>
    if c = quote then some 1
    else if c = '\n' || c = '\r' then none
    else (stringLength quote cs).map (· + 1)

inductive TemplateEnd where
  | closed
  | substitution
  deriving DecidableEq

def backquote : Char := Char.ofNat 96

def templateRun : List Char → Option (Nat × TemplateEnd)
  | [] => none
  | '\\' :: _ :: cs => (templateRun cs).map (fun read => (read.1 + 2, read.2))
  | '$' :: '{' :: _ => some (2, .substitution)
  | c :: cs =>
    if c = backquote then some (1, .closed)
    else (templateRun cs).map (fun read => (read.1 + 1, read.2))

def regexLength : Bool → List Char → Option Nat
  | _, [] => none
  | inside, '\\' :: c :: cs => if isLineEnd c then none else (regexLength inside cs).map (· + 2)
  | inside, c :: cs =>
    if isLineEnd c then none
    else if c = '/' && !inside then some 1
    -- A slash inside brackets closes nothing.
    else if c = '[' then (regexLength true cs).map (· + 1)
    else if c = ']' then (regexLength false cs).map (· + 1)
    else (regexLength inside cs).map (· + 1)

def scanRegex : List Char → Option Nat
  | '/' :: cs => do
    let body ← regexLength false cs
    return 1 + body + ((cs.drop body).takeWhile Letter.isContinue).length
  | _ => none

def isDecimal (c : Char) : Bool := ('0' ≤ c && c ≤ '9') || c = '_'

def digitRun (isDigit : Char → Bool) (cs : List Char) : Nat := (cs.takeWhile isDigit).length

def exponentLength : List Char → Nat
  | e :: s :: cs =>
    if e = 'e' || e = 'E' then
      if s = '+' || s = '-' then
        if digitRun isDecimal cs = 0 then 0 else 2 + digitRun isDecimal cs
      else if isDecimal s then 1 + digitRun isDecimal (s :: cs)
      else 0
    else 0
  | _ => 0

def decimalLength (cs : List Char) : Nat :=
  let whole := digitRun isDecimal cs
  match cs.drop whole with
  | 'n' :: _ => whole + 1
  | '.' :: rest =>
    let fraction := digitRun isDecimal rest
    whole + 1 + fraction + exponentLength (rest.drop fraction)
  | rest => whole + exponentLength rest

def radixLength (isDigit : Char → Bool) (cs : List Char) : Nat :=
  let run := digitRun (fun c => isDigit c || c = '_') cs
  if run = 0 then 0
  else
    match cs.drop run with
    | 'n' :: _ => run + 3
    | _ => run + 2

def numberLength : List Char → Nat
  | '0' :: x :: cs =>
    if x = 'x' || x = 'X' then radixLength (fun c => (Hex.value? c).isSome) cs
    else if x = 'o' || x = 'O' then radixLength (fun c => '0' ≤ c && c ≤ '7') cs
    else if x = 'b' || x = 'B' then radixLength (fun c => c = '0' || c = '1') cs
    else decimalLength ('0' :: x :: cs)
  | cs => decimalLength cs

def scanNumber (cs : List Char) : Token × Nat :=
  let count := numberLength cs
  match cs.drop count with
  | c :: _ => if Letter.isContinue c || c = '\\' then (.invalid, 1) else (.number, count)
  | [] => (.number, count)

def longSigns : List String :=
  ["...", "===", "!==", "**=", "&&=", "||=", "??=", "=>", "==", "!=", "<=", "++", "--", "+=",
    "-=", "*=", "/=", "%=", "&=", "|=", "^=", "&&", "||", "??", "?.", "**"]

def shortSigns : List Char :=
  ['{', '}', '(', ')', '[', ']', ';', ',', '<', '>', '+', '-', '*', '/', '%', '&', '|', '^', '!',
    '~', '?', ':', '=', '@', '.', backquote]

def startsDigit : List Char → Bool
  | c :: _ => '0' ≤ c && c ≤ '9'
  | [] => false

def takesSign (cs : List Char) (text : String) : Bool :=
  -- A question mark, a dot and a digit are no optional access.
  text.toList.isPrefixOf cs && !(text = "?." && startsDigit (cs.drop 2))

def scanSign (cs : List Char) : Token × Nat :=
  match longSigns.find? (takesSign cs) with
  | some text => (.sign text, text.length)
  | none =>
    match cs with
    | c :: _ => if shortSigns.contains c then (.sign (String.singleton c), 1) else (.invalid, 1)
    | [] => (.stop, 0)

def scan : List Char → Token × Nat
  | [] => (.stop, 0)
  | '#' :: cs =>
    match scanWord cs with
    | some (_, count) => (.privateName, count + 1)
    | none => (.invalid, 1)
  | c :: cs =>
    if isQuote c then
      match stringLength c cs with
      | some count => (.string, count + 1)
      | none => (.invalid, 1)
    else if startsDigit [c] || (c = '.' && startsDigit cs) then scanNumber (c :: cs)
    else if Letter.isStart c || c = '\\' then
      match scanWord (c :: cs) with
      | some (name, count) => (.word name, count)
      | none => (.invalid, 1)
    else scanSign (c :: cs)

theorem scanWord_isIdentifier {cs : List Char} {name : String} {count : Nat}
    (h : scanWord cs = some (name, count)) : Name.IsIdentifier name := by
  obtain ⟨⟨chars, length⟩, -, h⟩ := Option.bind_eq_some_iff.mp h
  simp only [Option.ite_none_right_eq_some, Option.some.injEq, Prod.mk.injEq, Bool.and_eq_true,
    List.all_eq_true] at h
  obtain ⟨⟨hstart, hcontinue⟩, rfl, -⟩ := h
  constructor
  · intro hempty
    have hnil : chars = [] := by simpa using hempty
    simp [hnil, startsWord] at hstart
  · intro hdot
    have hin := hcontinue '.' (by simpa using hdot)
    exact absurd hin (by decide)

/-- The words that are scanned are identifiers. -/
theorem scan_isIdentifier {cs : List Char} {name : String} (h : (scan cs).1 = .word name) :
    Name.IsIdentifier name := by
  have hnumber : ∀ cs, (scanNumber cs).1 ≠ .word name := by
    intro cs
    dsimp only [scanNumber]
    split
    · split <;> simp
    · simp
  have hsign : ∀ cs, (scanSign cs).1 ≠ .word name := by
    intro cs
    unfold scanSign
    split
    · simp
    · split
      · split <;> simp
      · simp
  unfold scan at h
  split at h
  · simp at h
  · split at h <;> simp at h
  · split at h
    · split at h <;> simp at h
    · split at h
      · exact absurd h (hnumber _)
      · split at h
        · split at h
          · next found count hfound =>
            obtain rfl : found = name := by simpa using h
            exact scanWord_isIdentifier hfound
          · simp at h
        · exact absurd h (hsign _)

end AmbientCatalog.Syntax
