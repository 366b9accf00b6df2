import SecretFanout.Object.Meta
import SecretFanout.Text.Base64

/-!
# Secrets

Secrets and the keys under which a cluster stores them. A key is written as
`namespace/name`.

* `SecretKey` is ordered by namespace and then by name, so it can be the key of a
  sorted map.
* `SecretKey.text_injective`: without a slash in the namespace a key can be read off its
  text.
-/

namespace SecretFanout

/-! ## Keys -/

/-- Where a secret is stored. -/
structure SecretKey where
  /-- The namespace. -/
  ns : String
  /-- The name within the namespace. -/
  name : String
  deriving DecidableEq, Inhabited

namespace SecretKey

/-- Namespaces first, then names. -/
instance : Ord SecretKey := ⟨compareLex (compareOn SecretKey.ns) (compareOn SecretKey.name)⟩

instance : Std.TransOrd SecretKey :=
  inferInstanceAs (Std.TransCmp (compareLex (compareOn SecretKey.ns) (compareOn SecretKey.name)))

instance : Std.LawfulEqOrd SecretKey where
  eq_of_compare {a b} h := by
    obtain ⟨na, a⟩ := a
    obtain ⟨nb, b⟩ := b
    have h : (compare na nb).then (compare a b) = .eq := h
    rw [Ordering.then_eq_eq] at h
    rw [Std.LawfulEqCmp.eq_of_compare h.1, Std.LawfulEqCmp.eq_of_compare h.2]

/-- A key as `namespace/name`. -/
def text (k : SecretKey) : String := k.ns ++ "/" ++ k.name

theorem toList_text (k : SecretKey) :
    k.text.toList = k.ns.toList ++ '/' :: k.name.toList := by
  simp [SecretKey.text]

/-- The namespace is what stands before the first slash, as long as it has none itself. -/
theorem takeWhile_text {k : SecretKey} (h : '/' ∉ k.ns.toList) :
    k.text.toList.takeWhile (· ≠ '/') = k.ns.toList := by
  have hns : ∀ c ∈ k.ns.toList, decide (c ≠ '/') = true := by
    intro c hc
    simpa using fun he : c = '/' => h (he ▸ hc)
  rw [toList_text, List.takeWhile_append_of_pos hns]
  simp

/-- A key can be read off its text when its namespace has no slash. -/
theorem text_injective {k l : SecretKey} (hk : '/' ∉ k.ns.toList)
    (hl : '/' ∉ l.ns.toList) (h : k.text = l.text) : k = l := by
  have hns : k.ns.toList = l.ns.toList := by
    rw [← takeWhile_text hk, ← takeWhile_text hl, h]
  have htext : k.ns.toList ++ '/' :: k.name.toList = l.ns.toList ++ '/' :: l.name.toList := by
    rw [← toList_text, ← toList_text, h]
  rw [hns] at htext
  have hname : k.name.toList = l.name.toList := by simpa using htext
  obtain ⟨kns, kname⟩ := k
  obtain ⟨lns, lname⟩ := l
  simp only [String.toList_inj] at hns hname
  rw [hns, hname]

end SecretKey

/-! ## Secrets -/

/-- A secret. -/
structure Secret where
  /-- Its metadata. -/
  metadata : ObjectMeta := {}
  /-- Its type, such as `Opaque`. -/
  type : Option String := none
  /-- Its contents. -/
  data : Option (SortedMap String (List UInt8)) := none
  /-- Contents in plain text, for writing only. -/
  stringData : Option TextMap := none
  /-- Whether its contents are fixed. -/
  immutable : Option Bool := none
  deriving DecidableEq

namespace Secret

/-- Where a secret belongs by its metadata. -/
def key (s : Secret) : SecretKey := ⟨s.metadata.ns.getD "", s.metadata.anyName⟩

/-- The labels, none if absent. -/
def labels (s : Secret) : TextMap := s.metadata.labelMap

/-- The secret under another version. -/
def withVersion (s : Secret) (version : String) : Secret :=
  { s with metadata := { s.metadata with resourceVersion := some version } }

/-- Reads bytes; null stands for none. -/
def bytesOfJson? : Json → Option (List UInt8)
  | .null => some []
  | j => do Text.Base64.decode? (← j.text?).toList

/-- Writes bytes. -/
def bytesToJson (bytes : List UInt8) : Json := .str (String.ofList (Text.Base64.encode bytes))

/-- Reads a secret. -/
def ofJson? (j : Json) : Option Secret := do
  let fields ← j.fields?
  Json.checkKind? fields "v1" "Secret"
  pure {
    metadata := (← Json.optional fields "metadata" ObjectMeta.ofJson?).getD {}
    type := ← Json.optional fields "type" Json.text?
    data := ← Json.optional fields "data" (Json.map? bytesOfJson?)
    stringData := ← Json.optional fields "stringData" (Json.map? Json.text?)
    immutable := ← Json.optional fields "immutable" Json.flag? }

/-- Writes a secret, the fields in alphabetical order. -/
def toJson (s : Secret) : Json :=
  .obj ([("apiVersion", .str "v1")] ++
    Json.present "data" (s.data.map (Json.ofMap bytesToJson)) ++
    Json.present "immutable" (s.immutable.map .bool) ++
    [("kind", .str "Secret"), ("metadata", s.metadata.toJson)] ++
    Json.present "stringData" (s.stringData.map Json.ofTexts) ++
    Json.present "type" (s.type.map .str))

end Secret

end SecretFanout
