/-!
# Glob patterns

Shell-style patterns over the bytes of a text: `*` and `?` stop at `/`, a `**`
that fills a whole path segment crosses it, `[a-z]` is a class, `{x,y}` offers
alternatives, a backslash takes the next byte as it is, and each leading `!`
inverts the answer.

Matching walks both byte strings with one cursor and never branches. A star
leaves a `Mark` to return to, an opened brace saves the cursor, and when nothing
fits the walk retreats to the newest of these. Inside braces all alternatives are
tried and the longest one that fits is taken.

* `step` is one move of the walk; `walk` repeats it to a `Verdict`.
* `globMatches` is the whole test.
-/

namespace SecretFanout.Glob

/-- The byte of an ASCII character. -/
def byte (c : Char) : UInt8 := c.val.toUInt8

/-- The bytes of a text. -/
def bytes (s : String) : Array UInt8 := s.toUTF8.data

/-! ## States of the walk -/

/-- A star to return to: where it stands in the pattern, and the place in the
text up to which it then reaches; place 0 marks nothing. -/
structure Mark where
  /-- The star's place in the pattern. -/
  glob : Nat := 0
  /-- The place in the text that the star tries next. -/
  path : Nat := 0
  deriving DecidableEq

/-- Places in the pattern and the text, with the stars to return to. -/
structure Cursor where
  /-- The place in the pattern. -/
  glob : Nat := 0
  /-- The place in the text. -/
  path : Nat := 0
  /-- The last star. -/
  wildcard : Mark := {}
  /-- The last `**` that fills a segment and is not yet locked in. -/
  globstar : Mark := {}
  deriving DecidableEq

/-- A cursor inside open braces. -/
structure State where
  /-- The current cursor. -/
  cursor : Cursor := {}
  /-- The cursors at the braces now open, innermost first. -/
  saved : List Cursor := []
  /-- How far the longest alternative reached; 0 while none fitted. -/
  longest : Nat := 0
  deriving DecidableEq

/-- How a walk ends. -/
inductive Verdict where
  /-- Pattern and text were used up together. -/
  | matched
  /-- Nothing is left to try. -/
  | unmatched
  /-- The pattern is malformed; such a pattern accepts nothing, inverted or not. -/
  | malformed
  deriving DecidableEq

/-- What comes of reading one piece of the pattern. -/
inductive Reading where
  /-- The piece fits. -/
  | fits (s : State)
  /-- The piece does not fit; the cursor stands where reading stopped. -/
  | stuck (s : State)
  /-- The pattern is malformed. -/
  | malformed

/-- One move of the walk. -/
inductive Move where
  /-- The walk is over. -/
  | halt (v : Verdict)
  /-- The walk goes on. -/
  | go (s : State)

/-- At most this many braces are open at a time. -/
def braceLimit : Nat := 10

/-! ## Pieces of a pattern -/

/-- The place after a run of further `/**` segments. -/
def skipGlobstars (g : Array UInt8) : Nat → Nat → Nat
  | 0, i => i
  | n + 1, i =>
    if g[i]? = some (byte '/') ∧ g[i + 1]? = some (byte '*') ∧ g[i + 2]? = some (byte '*') then
      skipGlobstars g n (i + 3)
    else i

/-- A byte of the pattern, taken literally after a backslash: its value and its last place. -/
def literal (g : Array UInt8) (i : Nat) : Option (UInt8 × Nat) :=
  match g[i]? with
  | none => none
  | some c =>
    if c = byte '\\' then
      match g[i + 1]? with
      | none => none
      | some d =>
        let value :=
          if d = byte 'b' then 8
          else if d = byte 'n' then 10
          else if d = byte 'r' then 13
          else if d = byte 't' then 9
          else d
        some (value, i + 1)
    else some (c, i)

/-- Where a skip over alternatives stopped. -/
inductive Skip where
  /-- After the comma before the next alternative. -/
  | comma (i : Nat)
  /-- After the closing brace. -/
  | closed (i : Nat)
  /-- The braces never close. -/
  | malformed

/-- Skips to the end of the open braces, or to the next alternative if `stop` is set. -/
def skipAlternatives (g : Array UInt8) (stop : Bool) : Nat → Nat → Nat → Bool → Skip
  | 0, _, _, _ => .malformed
  | n + 1, i, depth, inClass =>
    if depth = 0 then .closed i else
    match g[i]? with
    | none => .malformed
    | some c =>
      if c = byte '{' ∧ ¬inClass then skipAlternatives g stop n (i + 1) (depth + 1) inClass
      else if c = byte '}' ∧ ¬inClass then skipAlternatives g stop n (i + 1) (depth - 1) inClass
      else if c = byte ',' ∧ stop ∧ depth = 1 ∧ ¬inClass then .comma (i + 1)
      else if c = byte '*' ∧ ¬inClass then
        let i := if g[i + 1]? = some (byte '*') then skipGlobstars g g.size (i + 2) - 1 else i
        skipAlternatives g stop n (i + 1) depth inClass
      else if c = byte '[' then skipAlternatives g stop n (i + 1) depth true
      else if c = byte ']' then skipAlternatives g stop n (i + 1) depth false
      else if c = byte '\\' then skipAlternatives g stop n (i + 2) depth inClass
      else skipAlternatives g stop n (i + 1) depth inClass

/-- Skips alternatives from a place inside one open brace. -/
def skipBraces (g : Array UInt8) (stop : Bool) (i : Nat) : Skip :=
  skipAlternatives g stop (g.size + 2) i 1 false

/-- Whether a byte falls into the ranges of a class that start at a place, and the
place of the closing bracket; a bracket in first position is a member. -/
def classRanges (g : Array UInt8) (c : UInt8) : Nat → Nat → Bool → Bool → Option (Bool × Nat)
  | 0, _, _, _ => none
  | n + 1, i, first, hit =>
    match g[i]? with
    | none => none
    | some b =>
      if ¬first ∧ b = byte ']' then some (hit, i) else
      match literal g i with
      | none => none
      | some (low, i) =>
        match g[i + 1]?, g[i + 2]? with
        | some dash, some next =>
          if dash = byte '-' ∧ next ≠ byte ']' then
            match literal g (i + 2) with
            | none => none
            | some (high, j) => classRanges g c n (j + 1) false (hit || (low ≤ c && c ≤ high))
          else classRanges g c n (i + 1) false (hit || c = low)
        | _, _ => classRanges g c n (i + 1) false (hit || c = low)

/-! ## Moves -/

/-- Leaves the innermost brace with its longest alternative taken. -/
def State.closeBrace (s : State) : State :=
  match s.saved with
  | [] => s
  | top :: rest =>
    { cursor := { s.cursor with path := s.longest, wildcard := top.wildcard, globstar := top.globstar }
      saved := rest
      longest := if rest.isEmpty then 0 else s.longest }

/-- Reads a `*` or a `**`. -/
def readStar (g p : Array UInt8) (s : State) : Reading :=
  let c := s.cursor
  let double := g[c.glob + 1]? = some (byte '*')
  let start := if double then skipGlobstars g g.size (c.glob + 2) - 2 else c.glob
  let wildcard : Mark := ⟨start, c.path + 1⟩
  let c : Cursor :=
    if double then
      let next := start + 2
      if next = g.size then { c with glob := next, wildcard, globstar := wildcard }
      else if (next < 3 ∨ g[next - 3]? = some (byte '/')) ∧ g[next]? = some (byte '/') then
        let atSegment := c.path = 0 ∨ c.path < p.size ∧ p[c.path - 1]? = some (byte '/')
        { c with glob := if atSegment then next + 1 else next, wildcard, globstar := wildcard }
      else { c with glob := next, wildcard }
    else { c with glob := start + 1, wildcard }
  let c : Cursor :=
    if c.globstar.path ≠ c.wildcard.path ∧ p[c.path]? = some (byte '/') then
      if 0 < c.globstar.path ∧ c.path + 1 < p.size then
        { c with glob := c.globstar.glob, wildcard := ⟨c.globstar.glob, c.wildcard.path⟩ }
      else { c with wildcard := ⟨c.wildcard.glob, 0⟩ }
    else c
  let ends := g[c.glob]? = some (byte ',') ∨ g[c.glob]? = some (byte '}')
  if ¬s.saved.isEmpty ∧ ends then
    match skipBraces g false c.glob with
    | .malformed => .malformed
    | .comma i | .closed i => .fits { s with cursor := { c with glob := i } }
  else .fits { s with cursor := c }

/-- Reads a class against a byte of the text. -/
def readClass (g : Array UInt8) (b : UInt8) (s : State) : Reading :=
  let c := s.cursor
  let inverted := g[c.glob + 1]? = some (byte '^') ∨ g[c.glob + 1]? = some (byte '!')
  let start := if inverted then c.glob + 2 else c.glob + 1
  match classRanges g b (g.size + 1) start true false with
  | none => .malformed
  | some (hit, i) =>
    if hit ≠ decide inverted then
      .fits { s with cursor := { c with glob := i + 1, path := c.path + 1 } }
    else .stuck { s with cursor := { c with glob := i + 1 } }

/-- Reads a literal against a byte of the text; a literal that is no separator
locks in the last `**`. -/
def readLiteral (g : Array UInt8) (b : UInt8) (s : State) : Reading :=
  match literal g s.cursor.glob with
  | none => .malformed
  | some (value, i) =>
    let s : State := { s with cursor := { s.cursor with glob := i } }
    if b = value then
      let s : State :=
        if ¬s.saved.isEmpty ∧ 0 < i ∧ g[i - 1]? = some (byte '}') then
          { s with longest := s.cursor.path }.closeBrace
        else s
      let c := s.cursor
      let globstar : Mark := if value = byte '/' then c.globstar else ⟨c.globstar.glob, 0⟩
      .fits { s with cursor := { c with glob := c.glob + 1, path := c.path + 1, globstar } }
    else .stuck s

/-- Reads the piece of the pattern at the cursor. -/
def read (g p : Array UInt8) (s : State) : Reading :=
  match g[s.cursor.glob]? with
  | none => .stuck s
  | some c =>
    if c = byte '*' then readStar g p s
    else
      match p[s.cursor.path]?, s.saved with
      | some b, saved =>
        if c = byte '?' then
          if b = byte '/' then .stuck s
          else .fits { s with cursor := { s.cursor with glob := s.cursor.glob + 1, path := s.cursor.path + 1 } }
        else if c = byte '[' then readClass g b s
        else if c = byte '{' then
          if braceLimit ≤ saved.length then .malformed
          else
            .fits { s with
              cursor := { glob := s.cursor.glob + 1, path := s.cursor.path }
              saved := s.cursor :: saved }
        else readSeparator c s fun _ => readLiteral g b s
      | none, _ => readSeparator c s fun _ => .stuck s
where
  /-- Reads the end of an alternative inside braces. -/
  readSeparator (c : UInt8) (s : State) (otherwise : Unit → Reading) : Reading :=
    match s.saved with
    | [] => otherwise ()
    | top :: _ =>
      let longest := max s.longest s.cursor.path
      if c = byte '}' then
        .fits { s with longest, cursor := { s.cursor with glob := s.cursor.glob + 1 } }.closeBrace
      else if c = byte ',' then
        .fits { s with longest, cursor := { glob := s.cursor.glob + 1, path := top.path } }
      else otherwise ()

/-- The cursor at its last star, if that star can reach further. -/
def Cursor.backtrack? (p : Array UInt8) (c : Cursor) : Option Cursor :=
  if 0 < c.wildcard.path ∧ c.wildcard.path ≤ p.size then
    some { c with glob := c.wildcard.glob, path := c.wildcard.path }
  else none

/-- Goes back to the newest place with something left to try. -/
def retreat (g p : Array UInt8) (s : State) : Move :=
  match s.cursor.backtrack? p with
  | some c => .go { s with cursor := c }
  | none =>
    match s.saved with
    | [] => .halt .unmatched
    | top :: rest =>
      match skipBraces g true s.cursor.glob with
      | .malformed => .halt .malformed
      | .comma i => .go { s with cursor := { s.cursor with glob := i, path := top.path } }
      | .closed i =>
        if 0 < s.longest then
          .go { s with cursor := { s.cursor with glob := i } }.closeBrace
        else
          match top.backtrack? p with
          | some c => .go { s with cursor := c, saved := rest }
          | none => .halt .unmatched

/-- One move of the walk. -/
def step (g p : Array UInt8) (s : State) : Move :=
  if s.cursor.glob < g.size ∨ s.cursor.path < p.size then
    match read g p s with
    | .fits s => .go s
    | .stuck s => retreat g p s
    | .malformed => .halt .malformed
  else .halt .matched

/-- Repeats moves up to a number of them. -/
def walk (g p : Array UInt8) : Nat → State → Verdict
  | 0, _ => .unmatched
  | n + 1, s =>
    match step g p s with
    | .halt v => v
    | .go s => walk g p n s

/-- A bound on the moves of a walk that comes to an end: at each depth of braces a star is
left at most once per place in the pattern and in the text, and between two retreats the
walk goes through the pattern at most once. -/
def moveBound (g p : Array UInt8) : Nat :=
  Nat.pow (4 * (g.size + 2) * (g.size + 2) * (p.size + 2)) (braceLimit + 1)

/-- How many `!` a pattern starts with. -/
def inversions (g : Array UInt8) : Nat := (g.toList.takeWhile fun b => b = byte '!').length

/-- Whether the bytes of a text match the bytes of a pattern. The walk starts behind the
leading `!`, which are still there before its first segment: a `**` right behind them does
not fill a segment. -/
def matchesBytes (g p : Array UInt8) : Bool :=
  let start := inversions g
  match walk g p (moveBound g p) { cursor := { glob := start } } with
  | .matched => start % 2 = 0
  | .unmatched => start % 2 = 1
  | .malformed => false

end SecretFanout.Glob

namespace SecretFanout

/-- Whether a text matches a glob pattern. -/
def globMatches (pattern text : String) : Bool :=
  Glob.matchesBytes (Glob.bytes pattern) (Glob.bytes text)

end SecretFanout
