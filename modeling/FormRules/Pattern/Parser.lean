import FormRules.Pattern.Basic

/-!
# Reading patterns

The syntax of patterns: literals, `.`, bracketed classes, groups, alternatives, repetitions, anchors,
escapes and flags. A flag set inside a group holds to the end of that group, over its alternatives
too. Look-around and references back do not exist.

Each function takes the characters still to read and gives back those that it left; the fuel of the
recursive ones is the length of the text, of which each round takes at least one character.
-/

namespace FormRules.Pattern

open Text

/-- What is wrong with a pattern. -/
inductive SyntaxError
  | repetitionOfNothing
  | badCount
  | countOutOfOrder
  | groupNotClosed
  | groupNotOpened
  | lookAround
  | badFlag
  | badName
  | classNotClosed
  | badRange
  | badEscape
  | tooLarge
deriving DecidableEq, Repr

/-- How the characters of a pattern are read. -/
structure Flags where
  ignoreCase : Bool := false
  dotMatchesAll : Bool := false
  multiLine : Bool := false
  ignoreSpace : Bool := false

/-- A set under the flags. -/
def Flags.fold (flags : Flags) (s : CharSet) : CharSet :=
  if flags.ignoreCase then .folded s else s

/-- With the flag for it, drops blanks and comments. -/
def Flags.skip (flags : Flags) : List Char → List Char
  | [] => []
  | c :: cs =>
    if flags.ignoreSpace = false then c :: cs
    else if isBlank c then flags.skip cs
    else if c = '#' then skipComment cs
    else c :: cs
where
  /-- Drops the rest of a comment, and the blanks behind it. -/
  skipComment : List Char → List Char
  | [] => []
  | c :: cs => if c = '\n' then flags.skip cs else skipComment cs

/-! ## Escapes -/

/-- What an escape stands for. -/
inductive Escape
  | literal (c : Char)
  | set (s : CharSet)
  | anchor (a : Anchor)

/-- The value of a hexadecimal digit. -/
def hexDigit? (c : Char) : Option Nat :=
  if '0' ≤ c ∧ c ≤ '9' then some (c.toNat - 48)
  else if 'a' ≤ c ∧ c ≤ 'f' then some (c.toNat - 87)
  else if 'A' ≤ c ∧ c ≤ 'F' then some (c.toNat - 55)
  else none

/-- The character with the code that hexadecimal digits spell. -/
def hexChar? (ds : List Char) : Option Char := do
  let n ← ds.foldlM (fun n d => (hexDigit? d).map (16 * n + ·)) 0
  if ds ≠ [] ∧ (n < 0xD800 ∨ 0xDFFF < n ∧ n < 0x110000) then some (Char.ofNat n) else none

/-- Reads a character code: digits in braces, or `width` digits. -/
def readCode (width : Nat) (cs : List Char) : Except SyntaxError (Escape × List Char) :=
  let (ds, rest) := match cs with
    | '\x7b' :: cs => (cs.takeWhile (· != '\x7d'), cs.dropWhile (· != '\x7d'))
    | cs => (cs.take width, '\x7d' :: cs.drop width)
  let complete := cs.head? = some '\x7b' ∨ ds.length = width
  match hexChar? ds, rest with
  | some c, _ :: rest => if complete then .ok (.literal c, rest) else .error .badEscape
  | _, _ => .error .badEscape

/-- Reads what follows a backslash. A sign of punctuation stands for itself; a letter or digit has a
meaning or is refused. -/
def readEscape : List Char → Except SyntaxError (Escape × List Char)
  | [] => .error .badEscape
  | c :: cs =>
    match c with
    | 'd' => .ok (.set .digit, cs)
    | 'D' => .ok (.set (.compl .digit), cs)
    | 's' => .ok (.set .blank, cs)
    | 'S' => .ok (.set (.compl .blank), cs)
    | 'w' => .ok (.set .word, cs)
    | 'W' => .ok (.set (.compl .word), cs)
    | 'a' => .ok (.literal '\x07', cs)
    | 'f' => .ok (.literal '\x0c', cs)
    | 't' => .ok (.literal '\t', cs)
    | 'n' => .ok (.literal '\n', cs)
    | 'r' => .ok (.literal '\r', cs)
    | 'v' => .ok (.literal '\x0b', cs)
    | 'A' => .ok (.anchor .textStart, cs)
    | 'z' => .ok (.anchor .textEnd, cs)
    | 'b' => .ok (.anchor .wordBoundary, cs)
    | 'B' => .ok (.anchor .notWordBoundary, cs)
    | '<' => .ok (.anchor .wordStart, cs)
    | '>' => .ok (.anchor .wordEnd, cs)
    | 'x' => readCode 2 cs
    | 'u' => readCode 4 cs
    | 'U' => readCode 8 cs
    | c => if c.toNat < 0x80 ∧ !c.isAlphanum then .ok (.literal c, cs) else .error .badEscape

/-! ## Bracketed classes -/

/-- The named classes of ASCII characters. -/
def namedClass? (name : String) : Option CharSet :=
  let upper := CharSet.range 'A' 'Z'
  let lower := CharSet.range 'a' 'z'
  let digits := CharSet.range '0' '9'
  let alpha := CharSet.union upper lower
  let alnum := CharSet.union alpha digits
  let graph := CharSet.range '!' '~'
  match name with
  | "alnum" => some alnum
  | "alpha" => some alpha
  | "ascii" => some (.range '\x00' '\x7f')
  | "blank" => some (.union (.one ' ') (.one '\t'))
  | "cntrl" => some (.union (.range '\x00' '\x1f') (.one '\x7f'))
  | "digit" => some digits
  | "graph" => some graph
  | "lower" => some lower
  | "print" => some (.range ' ' '~')
  | "punct" => some (.diff graph alnum)
  | "space" => some (.union (.one ' ') (.range '\t' '\r'))
  | "upper" => some upper
  | "word" => some (.union alnum (.one '_'))
  | "xdigit" => some (.union digits (.union (.range 'A' 'F') (.range 'a' 'f')))
  | _ => none

/-- Reads a named class, as it stands between `[:` and `:]`. -/
def readNamedClass? (cs : List Char) : Option (CharSet × List Char) :=
  match cs with
  | ':' :: cs =>
    let (negated, cs) := match cs with
      | '^' :: cs => (true, cs)
      | cs => (false, cs)
    match cs.dropWhile (· != ':') with
    | ':' :: ']' :: rest =>
      (namedClass? (String.ofList (cs.takeWhile (· != ':')))).map fun s =>
        (if negated then .compl s else s, rest)
    | _ => none
  | _ => none

/-- Reads one end of a range. -/
def readClassItem : List Char → Except SyntaxError (Escape × List Char)
  | '\\' :: cs => readEscape cs
  | c :: cs => .ok (.literal c, cs)
  | [] => .error .classNotClosed

/-- Reads a single member of a class, or a range. -/
def readClassRange (flags : Flags) (cs : List Char) : Except SyntaxError (CharSet × List Char) := do
  let (first, cs) ← readClassItem cs
  let single : Except SyntaxError (CharSet × List Char) := match first with
    | .literal c => .ok (.one c, cs)
    | .set s => .ok (s, cs)
    | .anchor _ => .error .badEscape
  match flags.skip cs with
  | [] => .error .classNotClosed
  | '-' :: cs =>
    match flags.skip cs with
    | ']' :: _ | '-' :: _ => single
    | cs =>
      let (last, cs) ← readClassItem cs
      match first, last with
      | .literal low, .literal high =>
        if low ≤ high then .ok (.range low high, cs) else .error .badRange
      | _, _ => .error .badRange
  | _ => single

/-- The operators between the parts of a class. -/
inductive ClassOp
  | inter
  | diff
  | symmDiff

/-- What a class is so far: the part before the last operator, and the members since. -/
structure ClassState where
  left : Option (CharSet × ClassOp) := none
  members : CharSet := .none
  negated : Bool := false

/-- The set that the parts make together. -/
def ClassState.combined (flags : Flags) (st : ClassState) : CharSet :=
  match st.left with
  | none => st.members
  | some (left, op) =>
    let left := flags.fold left
    let right := flags.fold st.members
    match op with
    | .inter => .inter left right
    | .diff => .diff left right
    | .symmDiff => .symmDiff left right

/-- The class at its closing bracket. -/
def ClassState.close (flags : Flags) (st : ClassState) : CharSet :=
  let s := flags.fold (st.combined flags)
  if st.negated then .compl s else s

/-- The state behind an operator. -/
def ClassState.operate (flags : Flags) (op : ClassOp) (st : ClassState) : ClassState :=
  { st with left := some (st.combined flags, op), members := .none }

/-- The state with another member. -/
def ClassState.insert (s : CharSet) (st : ClassState) : ClassState :=
  { st with members := .union st.members s }

/-- Reads the start of a class: a caret negates it, and hyphens and then a closing bracket in front
are literal. -/
def openClass (flags : Flags) (cs : List Char) : ClassState × List Char :=
  let (negated, cs) := match flags.skip cs with
    | '^' :: cs => (true, flags.skip cs)
    | cs => (false, cs)
  let rest := cs.dropWhile (· == '-')
  let st : ClassState := { negated }
  if rest.length < cs.length then (st.insert (.one '-'), rest)
  else match cs with
    | ']' :: cs => (st.insert (.one ']'), cs)
    | cs => (st, cs)

/-- Reads a class up to its closing bracket. -/
def readClass (flags : Flags) : Nat → ClassState → List Char →
    Except SyntaxError (CharSet × List Char)
  | 0, _, _ => .error .classNotClosed
  | fuel + 1, st, cs =>
    match flags.skip cs with
    | [] => .error .classNotClosed
    | ']' :: cs => .ok (st.close flags, cs)
    | '[' :: cs =>
      match readNamedClass? cs with
      | some (s, cs) => readClass flags fuel (st.insert s) cs
      | none => do
        let (inner, cs) := openClass flags cs
        let (s, cs) ← readClass flags fuel inner cs
        readClass flags fuel (st.insert s) cs
    | '&' :: '&' :: cs => readClass flags fuel (st.operate flags .inter) cs
    | '-' :: '-' :: cs => readClass flags fuel (st.operate flags .diff) cs
    | '~' :: '~' :: cs => readClass flags fuel (st.operate flags .symmDiff) cs
    | cs => do
      let (s, cs) ← readClassRange flags cs
      readClass flags fuel (st.insert s) cs

/-! ## Repetitions -/

/-- Reads a number with blanks around it. -/
def readCount (cs : List Char) : Except SyntaxError Nat × List Char :=
  let cs := trimStart cs
  let ds := cs.takeWhile Char.isDigit
  let n := ds.foldl (fun n d => 10 * n + (d.toNat - 48)) 0
  (if ds = [] ∨ 0x100000000 ≤ n then .error .badCount else .ok n, trimStart (cs.dropWhile Char.isDigit))

/-- Reads the bounds of a counted repetition, behind its opening brace. -/
def readBounds (cs : List Char) : Except SyntaxError ((Nat × Option Nat) × List Char) := do
  let (least, cs) := readCount cs
  match cs with
  | '\x7d' :: cs =>
    let n ← least
    return ((n, some n), cs)
  | ',' :: cs =>
    let n ← least
    match trimStart cs with
    | '\x7d' :: cs => return ((n, none), cs)
    | cs =>
      let (most, cs) := readCount cs
      let m ← most
      match cs with
      | '\x7d' :: cs => if n ≤ m then return ((n, some m), cs) else .error .countOutOfOrder
      | _ => .error .badCount
  | _ => .error .badCount

/-- Drops the mark of a lazy repetition. -/
def dropLazy (flags : Flags) (cs : List Char) : List Char :=
  match flags.skip cs with
  | '?' :: cs => cs
  | cs => cs

/-- Reads a repetition sign: its bounds, if there is one. -/
def readRepetition? (flags : Flags) :
    List Char → Option (Except SyntaxError ((Nat × Option Nat) × List Char))
  | '*' :: cs => some (.ok ((0, none), dropLazy flags cs))
  | '+' :: cs => some (.ok ((1, none), dropLazy flags cs))
  | '?' :: cs => some (.ok ((0, some 1), dropLazy flags cs))
  | '\x7b' :: cs => some ((readBounds cs).map fun (bounds, cs) => (bounds, dropLazy flags cs))
  | _ => none

/-! ## Groups -/

/-- Switches one flag. -/
def Flags.switch? (flags : Flags) (on : Bool) : Char → Option Flags
  | 'i' => some { flags with ignoreCase := on }
  | 's' => some { flags with dotMatchesAll := on }
  | 'm' => some { flags with multiLine := on }
  | 'x' => some { flags with ignoreSpace := on }
  | 'U' | 'u' | 'R' => some flags
  | _ => none

/-- Reads flags up to a colon or a closing parenthesis, which is left. No flag and no minus sign may
come twice, and a minus sign needs a flag behind it. -/
def readFlags (flags : Flags) (seen : List Char) : List Char →
    Except SyntaxError (Flags × List Char)
  | [] => .error .badFlag
  | c :: cs =>
    if c = ':' ∨ c = ')' then
      if seen.head? = some '-' ∨ c = ')' ∧ seen = [] then .error .badFlag else .ok (flags, c :: cs)
    else if seen.contains c then .error .badFlag
    else if c = '-' then readFlags flags (c :: seen) cs
    else match flags.switch? (!seen.contains '-') c with
      | some flags => readFlags flags (c :: seen) cs
      | none => .error .badFlag

/-- Reads a group's name up to `>`. -/
def skipName (cs : List Char) : Except SyntaxError (List Char) :=
  let name := cs.takeWhile (· != '>')
  let starts (c : Char) := c = '_' || CharSet.word.has c && !CharSet.digit.has c
  let continues (c : Char) := CharSet.word.has c || ['.', '[', ']'].contains c
  match name, cs.dropWhile (· != '>') with
  | c :: rest, '>' :: cs => if starts c && rest.all continues then .ok cs else .error .badName
  | _, _ => .error .badName

/-- What stands behind an opening parenthesis: flags for the rest of the group around it, or a group
of its own. -/
inductive Opening
  | flags (flags : Flags)
  | group (flags : Flags)

/-- Reads what makes a group special. -/
def readOpening (flags : Flags) (cs : List Char) : Except SyntaxError (Opening × List Char) :=
  match flags.skip cs with
  | '?' :: '=' :: _ | '?' :: '!' :: _ | '?' :: '<' :: '=' :: _ | '?' :: '<' :: '!' :: _ =>
    .error .lookAround
  | '?' :: 'P' :: '<' :: cs | '?' :: '<' :: cs => (skipName cs).map fun cs => (.group flags, cs)
  | '?' :: cs => do
    match ← readFlags flags [] cs with
    | (inner, ':' :: cs) => return (.group inner, cs)
    | (inner, _ :: cs) => return (.flags inner, cs)
    | (_, []) => .error .groupNotClosed
  | cs => .ok (.group flags, cs)

/-! ## Patterns -/

/-- The sequence of the items, which are given last first. A `none` stands for flags, which match
nothing of their own and cannot be repeated. -/
def sequence (items : List (Option Pattern)) : Pattern :=
  items.foldl (fun rest item => match item with
    | some p => if rest = .empty then p else .seq p rest
    | none => rest) .empty

/-- The choice between the alternatives, which are given last first. -/
def choice (last : Pattern) (alternatives : List Pattern) : Pattern :=
  alternatives.foldl (fun rest p => .alt p rest) last

/-- A character of a pattern that has no other meaning. -/
def literal (flags : Flags) (c : Char) : Pattern := .set (flags.fold (.one c))

/-- What a dot matches. -/
def dot (flags : Flags) : Pattern :=
  .set (if flags.dotMatchesAll then .compl .none else .compl (.one '\n'))

/-- Reads a single character, class of characters or anchor. -/
def readPrimitive (flags : Flags) (c : Char) (cs : List Char) :
    Except SyntaxError (Pattern × List Char) :=
  match c with
  | '.' => .ok (dot flags, cs)
  | '^' => .ok (.anchor (if flags.multiLine then .lineStart else .textStart), cs)
  | '$' => .ok (.anchor (if flags.multiLine then .lineEnd else .textEnd), cs)
  | '\\' => (readEscape cs).map fun (e, cs) =>
    (match e with
      | .literal c => literal flags c
      | .set s => .set (flags.fold s)
      | .anchor a => .anchor a, cs)
  | c => .ok (literal flags c, cs)

/-- Reads alternatives up to a closing parenthesis, which is left, or the end. -/
def readChoice : Nat → Flags → List Pattern → List (Option Pattern) → List Char →
    Except SyntaxError (Pattern × List Char)
  | 0, _, alternatives, items, cs => .ok (choice (sequence items) alternatives, cs)
  | fuel + 1, flags, alternatives, items, cs =>
    let cs := flags.skip cs
    match readRepetition? flags cs with
    | some repetition =>
      match items with
      | some p :: items => do
        let ((least, most), cs) ← repetition
        readChoice fuel flags alternatives (some (.loop p least most) :: items) cs
      | _ => .error .repetitionOfNothing
    | none =>
      match cs with
      | [] => .ok (choice (sequence items) alternatives, [])
      | ')' :: _ => .ok (choice (sequence items) alternatives, cs)
      | '|' :: cs => readChoice fuel flags (sequence items :: alternatives) [] cs
      | '(' :: cs => do
        match ← readOpening flags cs with
        | (.flags inner, cs) => readChoice fuel inner alternatives (none :: items) cs
        | (.group inner, cs) =>
          match ← readChoice fuel inner [] [] cs with
          | (p, ')' :: cs) => readChoice fuel flags alternatives (some p :: items) cs
          | _ => .error .groupNotClosed
      | '[' :: cs => do
        let (st, cs) := openClass flags cs
        let (s, cs) ← readClass flags fuel st cs
        readChoice fuel flags alternatives (some (.set s) :: items) cs
      | c :: cs => do
        let (p, cs) ← readPrimitive flags c cs
        readChoice fuel flags alternatives (some p :: items) cs

/-- The largest pattern that this reader accepts, with its repetitions written out. -/
def sizeLimit : Nat := 400000

/-- Reads a pattern. -/
def parse (source : String) : Except SyntaxError Pattern := do
  let cs := source.toList
  match ← readChoice (cs.length + 1) {} [] [] cs with
  | (p, []) => if p.size ≤ sizeLimit then .ok p else .error .tooLarge
  | _ => .error .groupNotOpened

end FormRules.Pattern
