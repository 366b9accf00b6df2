import SecretFanout.Text.Bytes

/-!
# Patterns

Patterns of characters, and where they stand in a text. A pattern may match at the start of a
text in several ways, which are put in order: a run of characters rather takes more than fewer,
what may be left out is rather taken, and of several words the one that is named first is
preferred. In a row of two patterns the ways of the first one count more.

* `Pattern.ways` has all ways, the preferred one first.
* `Pattern.hits` goes through a text from left to right and has the places where two patterns
  stand one behind the other, none of which overlap.
-/

namespace SecretFanout.Text

/-- A pattern of characters. -/
inductive Pattern where
  /-- Characters of a kind, at least one. -/
  | run (kind : Char → Bool)
  /-- One of several words. -/
  | words (list : List (List Char))
  /-- One pattern and behind it another one. -/
  | row (first second : Pattern)
  /-- A pattern, or nothing. -/
  | maybe (inner : Pattern)

namespace Pattern

/-! ## Ways to match -/

/-- The ways to take characters of a kind from the start of a text, the longest first, each with
the rest of the text. -/
def runWays (kind : Char → Bool) : List Char → List (List Char × List Char)
  | [] => []
  | c :: r =>
    if kind c then (runWays kind r).map (fun way => (c :: way.1, way.2)) ++ [([c], r)] else []

/-- The ways to match at the start of a text, the preferred one first: what is taken, and the
rest of the text. -/
def ways : Pattern → List Char → List (List Char × List Char)
  | run kind, s => runWays kind s
  | words list, s => list.filterMap fun word => (word.isPrefixOf? s).map fun rest => (word, rest)
  | row first second, s =>
    (first.ways s).flatMap fun way => (second.ways way.2).map fun way' => (way.1 ++ way'.1, way'.2)
  | maybe inner, s => inner.ways s ++ [([], s)]

/-! ## Searching -/

/-- The preferred way in which two patterns stand at the start of a text, one behind the other:
what each of them takes. -/
def pair? (first second : Pattern) (s : List Char) : Option (List Char × List Char) :=
  ((first.ways s).flatMap fun way => (second.ways way.2).map fun way' => (way.1, way'.1)).head?

/-- A place in a text where two patterns stand one behind the other. -/
structure Hit where
  /-- The number of bytes in front of it. -/
  start : Nat
  /-- What the first pattern takes. -/
  first : List Char
  /-- What the second pattern takes. -/
  second : List Char
  deriving DecidableEq

/-- The number of bytes up to the end of a place. -/
def Hit.stop (h : Hit) : Nat := h.start + byteLength (h.first ++ h.second)

/-- The places in a text that has so many bytes in front of it, and whose first so many
characters belong to a place that was found before. -/
def hitsFrom (first second : Pattern) (start taken : Nat) : List Char → List Hit
  | [] => []
  | c :: r =>
    match taken with
    | n + 1 => hitsFrom first second (start + c.utf8Size) n r
    | 0 =>
      match pair? first second (c :: r) with
      | none => hitsFrom first second (start + c.utf8Size) 0 r
      | some (x, y) =>
        ⟨start, x, y⟩ :: hitsFrom first second (start + c.utf8Size) ((x ++ y).length - 1) r

/-- The places in a text where two patterns stand one behind the other, from left to right and
without overlaps. -/
def hits (first second : Pattern) (s : List Char) : List Hit := hitsFrom first second 0 0 s

end Pattern

end SecretFanout.Text
