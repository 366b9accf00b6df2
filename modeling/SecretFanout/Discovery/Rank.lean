import SecretFanout.Text.Numeral

/-!
# The rank of versions

How mature the version of a kind is by its name: `v2` is stable, `v2beta1` and `v2alpha1`
are not yet. Among like versions the larger numbers rank higher, and below all of them are
names of any other form, which rank the lower the later they come in the alphabet.

* `VersionRank.ofName` reads a name, `VersionRank.compare` compares two ranks.
* `highest?` is the first of the highest in a list.
-/

namespace SecretFanout

/-- How mature a version is. -/
inductive Stability where
  /-- Its name has no known form. -/
  | unknown
  /-- It is a first try. -/
  | alpha
  /-- It is to become stable. -/
  | beta
  /-- It is there to stay. -/
  | stable
  deriving DecidableEq

/-- A number for each degree of maturity, the larger for the more mature. -/
def Stability.level : Stability → Nat
  | .unknown => 0
  | .alpha => 1
  | .beta => 2
  | .stable => 3

/-- The rank of a version. -/
structure VersionRank where
  /-- Its maturity. -/
  stability : Stability
  /-- Its number. -/
  major : Nat := 0
  /-- The number of the try, if it has one. -/
  minor : Option Nat := none
  /-- Its name, if that has no known form. -/
  name : String := ""
  deriving DecidableEq

namespace VersionRank

/-- The numbers in the names of versions have 32 bits. -/
def numberBound : Nat := Nat.pow 2 32

/-- Reads the number of a try, which may be left out. -/
def readMinor? (s : List Char) : Option (Option Nat) :=
  if s.isEmpty then some none else (Text.readBelow numberBound s).toOption.map some

/-- Reads what comes behind the number of a version. -/
def readTry? (major : Nat) : List Char → Option VersionRank
  | [] => some { stability := .stable, major }
  | 'a' :: 'l' :: 'p' :: 'h' :: 'a' :: r =>
    (readMinor? r).map fun minor => { stability := .alpha, major, minor }
  | 'b' :: 'e' :: 't' :: 'a' :: r =>
    (readMinor? r).map fun minor => { stability := .beta, major, minor }
  | _ => none

/-- Reads a name of a known form. -/
def read? : List Char → Option VersionRank
  | 'v' :: s =>
    let (digits, r) := Text.spanDigits s
    (Text.readBelow numberBound digits).toOption.bind fun major => readTry? major r
  | _ => none

/-- The rank of a version by its name. -/
def ofName (name : String) : VersionRank :=
  (read? name.toList).getD { stability := .unknown, name }

/-- Compares ranks: by maturity, then by number, then by the number of the try, where none
is less than any; names of no known form are compared last, in reverse. -/
def compare (a b : VersionRank) : Ordering :=
  (Ord.compare a.stability.level b.stability.level).then <|
  (Ord.compare a.major b.major).then <|
  (Ord.compare (a.minor.elim 0 (· + 1)) (b.minor.elim 0 (· + 1))).then <|
  Ord.compare b.name a.name

end VersionRank

/-- The first of those names in a list that rank highest. -/
def highest? : List String → Option String
  | [] => none
  | name :: rest =>
    match highest? rest with
    | none => some name
    | some best =>
      if (VersionRank.ofName name).compare (VersionRank.ofName best) = .lt then some best
      else some name

end SecretFanout
