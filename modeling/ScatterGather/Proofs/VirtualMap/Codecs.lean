import ScatterGather.JsonForm
import ScatterGather.Proofs.Json.Objects
import ScatterGather.Proofs.VirtualMap.Grammar

/-!
# Two codecs of a virtual shard map

A map is written as a text of pairs and as a JSON object of numbers, and both are read back as the same
map. The text of pairs spells the pairs of the map, so that the grammar says what is read. The JSON text
is that of an object with plain keys, and its members are the pairs again.
-/

namespace ScatterGather

namespace ShardId

/-! ## Ids -/

theorem toList_text (id : ShardId) : id.text.toList = Text.digits id.toNat :=
  String.toList_ofList

theorem written_digits (id : ShardId) : Written (Text.digits id.toNat) id :=
  ⟨[], _, [], List.forall_mem_nil _, List.forall_mem_nil _, .plain (Text.digits_spec _), by simp⟩

theorem ofDocument?_natural (id : ShardId) :
    ofDocument? (.number (.natural id.toNat)) = some id := by
  have hnat : (Json.Numeral.natural id.toNat).nat? bound = some id.toNat := by
    simp [Json.Numeral.nat?, Json.Numeral.natural, id.toNat_lt]
  rw [ofDocument?, hnat, Option.map_some, ofNat_toNat]

end ShardId

theorem Json.plain_of_isDigit {c : Char} (h : c.isDigit = true) : Plain c := by
  have hrange : 48 ≤ c.toNat ∧ c.toNat ≤ 57 := by
    simpa [Char.isDigit, UInt32.le_iff_toNat_le] using h
  refine ⟨?_, ?_, by omega⟩
  · rintro rfl
    exact absurd h (by decide)
  · rintro rfl
    exact absurd h (by decide)

namespace VirtualMap

/-! ## Texts of pairs -/

/-- The text of a pair. -/
def pairText (pair : ShardId × ShardId) : List Char :=
  Text.digits pair.1.toNat ++ '=' :: Text.digits pair.2.toNat

theorem toList_text (m : VirtualMap) : m.text.toList = [','].intercalate (m.toList.map pairText) := by
  rw [text, Text.toList_join, List.map_map]
  congr 2
  funext pair
  simp [pairText, ShardId.toList_text]

theorem pieces_pairText (pairs : List (ShardId × ShardId)) : Pieces (pairs.map pairText) pairs := by
  induction pairs with
  | nil => exact .nil
  | cons pair pairs ih =>
    exact .entry ⟨_, _, rfl, ShardId.written_digits pair.1, ShardId.written_digits pair.2⟩ ih

/-- A map is written by spelling its pairs. -/
theorem written_text (m : VirtualMap) : Written m.text.toList m.toList :=
  ⟨_, m.toList_text, pieces_pairText _⟩

theorem read_text (m : VirtualMap) : read m.text.toList = .ok m :=
  read_ok_iff.mpr ⟨m.toList, m.written_text, m.map.nodup_keys, .refl _⟩

theorem text_inj {m m' : VirtualMap} : m.text = m'.text ↔ m = m' := by
  refine ⟨fun h => ?_, congrArg text⟩
  have hread := m.read_text
  rw [h, read_text] at hread
  exact (Except.ok.inj hread).symm

/-! ## JSON texts -/

/-- The numbers of a pair, the first one as a key. -/
def member (pair : ShardId × ShardId) : List Char × Nat :=
  (Text.digits pair.1.toNat, pair.2.toNat)

theorem toList_json (m : VirtualMap) : m.json.toList = Json.objectText (m.toList.map member) := by
  rw [json, String.toList_append, String.toList_append, Text.toList_join, List.map_map,
    Json.objectText, List.map_map]
  have hmember : ∀ pair : ShardId × ShardId, ("\"" ++ pair.1.text ++ "\":" ++ pair.2.text).toList
      = Json.memberText (member pair) := by
    intro pair
    simp [Json.memberText, member, ShardId.toList_text]
  simp only [Function.comp_def, hmember]
  rfl

theorem ofKey?_digits (id : ShardId) : ofKey? (Text.digits id.toNat) = some id := by
  have hspec := Text.digits_spec id.toNat
  unfold ofKey?
  split
  case h_1 second rest h => exact absurd (Text.digits_zero_cons h) (List.cons_ne_nil _ _)
  case h_2 rest h =>
    rw [h] at hspec
    exact absurd hspec.head (by decide)
  case h_3 =>
    rw [(Text.readNat_ok_iff (by decide) _).mpr ⟨.plain hspec, id.toNat_lt⟩]
    simp [Except.toOption, ShardId.ofNat_toNat]

theorem ofDocument?_members (m : VirtualMap) :
    ofDocument? (.object ((m.toList.map member).map Json.memberDocument)) = some m := by
  simp only [ofDocument?, List.foldlM_map, Json.memberDocument, member, ofKey?_digits,
    ShardId.ofDocument?_natural]
  have hfold : m.toList.foldlM (fun m pair => some (m.insert pair.1 pair.2)) empty
      = some (m.toList.foldl (fun m pair => m.insert pair.1 pair.2) empty) :=
    List.foldlM_pure
  rw [hfold, foldl_insert]
  exact congrArg (fun map => some (VirtualMap.mk map)) m.map.ofList_entries

theorem parse?_json (m : VirtualMap) : JsonForm.parse? VirtualMap m.json.toList = some m := by
  have hplain : ∀ named ∈ m.toList.map member, ∀ c ∈ named.1, Json.Plain c := by
    intro named hnamed c hc
    obtain ⟨pair, -, rfl⟩ := List.mem_map.mp hnamed
    exact Json.plain_of_isDigit ((Text.digits_spec _).isDigit c hc)
  rw [JsonForm.parse?, toList_json, Json.parse?_objectText hplain]
  exact m.ofDocument?_members

/-! ## Both codecs -/

/-- Every map is read back from its text of pairs and from its JSON text. The text of a map that was
read is a normal form of what it was read from: two texts that are read have the same normal form
exactly if they are read as the same map. -/
theorem codecs_lossless :
    (∀ m : VirtualMap, read m.text.toList = .ok m)
    ∧ (∀ m : VirtualMap, JsonForm.parse? VirtualMap (JsonForm.json m).toList = some m)
    ∧ ∀ (text text' : List Char) (m m' : VirtualMap), read text = .ok m → read text' = .ok m' →
      (m.text = m'.text ↔ m = m') :=
  ⟨read_text, parse?_json, fun _ _ _ _ _ _ => text_inj⟩

/-- Two spellings of one map, and one of a map with another normal form. -/
theorem codecs_lossless_spellings :
    let one := ShardId.ofNat 1
    let four := ShardId.ofNat 4
    let m := ofList [(one, four), (four, one)]
    let m' := ofList [(one, four)]
    read " 4 = 01,, +1=4".toList = .ok m ∧ read "1=4,4=1".toList = .ok m
      ∧ read "1=4".toList = .ok m' ∧ m.text ≠ m'.text := by
  intro one four m m'
  have hloose : read " 4 = 01,, +1=4".toList = .ok m := by decide
  have hother : read "1=4".toList = .ok m' := by decide
  obtain ⟨-, -, hnormal⟩ := codecs_lossless
  refine ⟨hloose, by decide, hother, fun hsame => ?_⟩
  have hne : m ≠ m' := by decide
  exact hne ((hnormal _ _ _ _ hloose hother).mp hsame)

end VirtualMap

end ScatterGather
