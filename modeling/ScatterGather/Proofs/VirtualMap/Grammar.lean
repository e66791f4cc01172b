import Mathlib.Data.List.Forall2
import ScatterGather.Proofs.Ordered
import ScatterGather.Proofs.Text.Cutting
import ScatterGather.Proofs.Text.Decimal
import ScatterGather.VirtualMap

/-!
# What a virtual shard map may look like

The grammar of a written map, said without the reader: pieces with commas between them, each of them
blank or an id, an equals sign and an id, with white space around the ids. A text spells one list of
pairs at most. It is read exactly if it spells one in which no virtual id occurs twice, and then the map
has just these pairs; so their order, blanks, empty pieces, plus signs and leading zeros do not matter.
Any other text is a configuration error.
-/

namespace ScatterGather

open Text

/-! ## Characters -/

theorem Text.isBlank_of_isDigit {c : Char} (h : c.isDigit = true) : isBlank c = false := by
  have hrange : 48 ≤ c.toNat ∧ c.toNat ≤ 57 := by
    simpa [Char.isDigit, UInt32.le_iff_toNat_le] using h
  simp only [isBlank, blankRanges, List.any_cons, List.any_nil, Bool.or_false, Bool.or_eq_false_iff,
    Bool.and_eq_false_iff, decide_eq_false_iff_not]
  omega

theorem Text.Numeral.not_blank {text : List Char} {n : Nat} (h : Numeral text n) :
    ∀ c ∈ text, isBlank c = false := by
  intro c hc
  rcases h.chars c hc with hdigit | rfl
  · exact isBlank_of_isDigit hdigit
  · rfl

namespace ShardId

/-! ## Ids -/

/-- An id in decimal, with white space around it. -/
def Written (text : List Char) (id : ShardId) : Prop :=
  ∃ before core after, Blanks before ∧ Blanks after ∧ Numeral core id.toNat
    ∧ text = before ++ core ++ after

theorem toNat_ofNat {n : Nat} (h : n < bound) : (ofNat n).toNat = n :=
  UInt64.toNat_ofNat_of_lt h

theorem toNat_lt (id : ShardId) : id.toNat < bound :=
  UInt64.toNat_lt_size id.val

theorem ofNat_toNat (id : ShardId) : ofNat id.toNat = id := by
  rw [ofNat, toNat, UInt64.ofNat_toNat]

/-- Exactly the written ids can be read. -/
theorem read_ok_iff {text : List Char} {id : ShardId} : read text = .ok id ↔ Written text id := by
  have hread : read text = .ok id ↔ readNat bound (trim text) = .ok id.toNat := by
    unfold read
    cases hnat : readNat bound (trim text) with
    | error e => simp [Except.map]
    | ok n =>
      have hn := ((readNat_ok_iff (by decide) _).mp hnat).2
      simp only [Except.map, Except.ok.injEq]
      constructor
      · rintro rfl
        exact (toNat_ofNat hn).symm
      · rintro rfl
        exact ofNat_toNat id
  rw [hread, readNat_ok_iff (by decide), Written, and_iff_left id.toNat_lt]
  constructor
  · intro hnumeral
    obtain ⟨-, before, after, hbefore, hafter, htext⟩ := trim_eq_iff.mp (rfl : trim text = trim text)
    exact ⟨before, _, after, hbefore, hafter, hnumeral, htext⟩
  · rintro ⟨before, core, after, hbefore, hafter, hnumeral, rfl⟩
    have htrim : trim (before ++ core ++ after) = core := by
      refine trim_eq_iff.mpr ⟨⟨?_, ?_⟩, before, after, hbefore, hafter, rfl⟩
      · simpa using startsTight_append hnumeral.ne_nil hnumeral.not_blank []
      · have hne : core.reverse ≠ [] := by simpa using hnumeral.ne_nil
        have hblank : ∀ c ∈ core.reverse, isBlank c = false :=
          fun c hc => hnumeral.not_blank c (List.mem_reverse.mp hc)
        simpa using startsTight_append hne hblank []
    rwa [htrim]

theorem Written.chars {text : List Char} {id : ShardId} (h : Written text id) :
    ∀ c ∈ text, isBlank c = true ∨ c.isDigit = true ∨ c = '+' := by
  obtain ⟨before, core, after, hbefore, hafter, hnumeral, rfl⟩ := h
  intro c hc
  rw [List.mem_append, List.mem_append] at hc
  rcases hc with (hc | hc) | hc
  · exact .inl (hbefore c hc)
  · exact .inr (hnumeral.chars c hc)
  · exact .inl (hafter c hc)

theorem Written.not_mem {text : List Char} {id : ShardId} (h : Written text id) {c : Char}
    (hc : isBlank c = false ∧ c.isDigit = false ∧ c ≠ '+') : c ∉ text := by
  intro hmem
  rcases h.chars c hmem with hblank | hdigit | rfl
  · simp [hblank] at hc
  · simp [hdigit] at hc
  · exact hc.2.2 rfl

/-- More white space around an id. -/
theorem Written.pad {text before after : List Char} {id : ShardId} (h : Written text id)
    (hbefore : Blanks before) (hafter : Blanks after) : Written (before ++ text ++ after) id := by
  obtain ⟨before', core, after', hbefore', hafter', hnumeral, rfl⟩ := h
  exact ⟨before ++ before', core, after' ++ after, hbefore.append hbefore', hafter'.append hafter,
    hnumeral, by simp⟩

end ShardId

namespace VirtualMap

/-! ## Entries -/

/-- A written pair of ids. -/
def Entry (text : List Char) (pair : ShardId × ShardId) : Prop :=
  ∃ left right, text = left ++ '=' :: right
    ∧ ShardId.Written left pair.1 ∧ ShardId.Written right pair.2

/-- White space around an entry belongs to its ids. -/
theorem entry_trim_iff {text : List Char} {pair : ShardId × ShardId} :
    Entry (trim text) pair ↔ Entry text pair := by
  constructor
  · rintro ⟨left, right, htrim, hleft, hright⟩
    obtain ⟨-, before, after, hbefore, hafter, rfl⟩ := trim_eq_iff.mp htrim
    refine ⟨before ++ left, right ++ after, by simp, ?_, ?_⟩
    · simpa using hleft.pad hbefore (List.forall_mem_nil _)
    · simpa using hright.pad (List.forall_mem_nil _) hafter
  · rintro ⟨_, _, rfl, ⟨before, left, gap, hbefore, hgap, hleft, rfl⟩,
      ⟨gap', right, after, hgap', hafter, hright, rfl⟩⟩
    have htrim : trim (before ++ left ++ gap ++ '=' :: (gap' ++ right ++ after))
        = left ++ (gap ++ '=' :: (gap' ++ right)) := by
      refine trim_eq_iff.mpr ⟨⟨?_, ?_⟩, before, after, hbefore, hafter, by simp⟩
      · exact startsTight_append hleft.ne_nil hleft.not_blank _
      · have hne : right.reverse ≠ [] := by simpa using hright.ne_nil
        have hblank : ∀ c ∈ right.reverse, isBlank c = false :=
          fun c hc => hright.not_blank c (List.mem_reverse.mp hc)
        simpa using startsTight_append hne hblank (gap'.reverse ++ '=' :: (gap.reverse ++ left.reverse))
    refine ⟨left ++ gap, gap' ++ right, by simpa using htrim, ?_, ?_⟩
    · exact ⟨[], left, gap, List.forall_mem_nil _, hgap, hleft, rfl⟩
    · exact ⟨gap', right, [], hgap', List.forall_mem_nil _, hright, by simp⟩

theorem readId_ok_iff {text : List Char} {id : ShardId} :
    readId text = .ok id ↔ ShardId.Written text id := by
  rw [readId, ← ShardId.read_ok_iff]
  cases ShardId.read text <;> simp

theorem readId_error {text : List Char} {e : ShardError} (h : readId text = .error e) :
    ∃ message, e = .configuration message := by
  rw [readId] at h
  split at h
  · cases h
  · cases h
    exact ⟨_, rfl⟩

theorem entry_iff_cut? {text : List Char} {pair : ShardId × ShardId} :
    Entry text pair ↔ ∃ left right, cut? '=' text = some (left, right)
      ∧ ShardId.Written left pair.1 ∧ ShardId.Written right pair.2 := by
  constructor
  · rintro ⟨left, right, rfl, hleft, hright⟩
    exact ⟨left, right, cut?_eq_some_iff.mpr ⟨rfl, hleft.not_mem (by decide)⟩, hleft, hright⟩
  · rintro ⟨left, right, hcut, hleft, hright⟩
    exact ⟨left, right, (cut?_eq_some_iff.mp hcut).1, hleft, hright⟩

/-- An entry is read if its virtual id is new. -/
theorem readEntry_ok_iff {m m' : VirtualMap} {text : List Char} :
    readEntry m text = .ok m' ↔ ∃ pair, Entry text pair ∧ m.map.contains pair.1 = false
      ∧ m' = m.insert pair.1 pair.2 := by
  simp only [entry_iff_cut?, Prod.exists]
  unfold readEntry
  cases hcut : cut? '=' text with
  | none => simp
  | some sides =>
    obtain ⟨left, right⟩ := sides
    simp only [Option.some.injEq, Prod.mk.injEq, ← readId_ok_iff]
    cases hleft : readId left with
    | error e =>
      refine iff_of_false (by simp [bind, Except.bind]) ?_
      rintro ⟨_, _, ⟨_, _, ⟨rfl, rfl⟩, hwritten, -⟩, -⟩
      simp [hleft] at hwritten
    | ok virtualId =>
      cases hright : readId right with
      | error e =>
        refine iff_of_false (by simp [bind, Except.bind]) ?_
        rintro ⟨_, _, ⟨_, _, ⟨rfl, rfl⟩, -, hwritten⟩, -⟩
        simp [hright] at hwritten
      | ok physicalId =>
        simp only [bind, Except.bind]
        constructor
        · intro h
          split at h
          · cases h
          case isFalse hnew =>
            obtain rfl := Except.ok.inj h
            exact ⟨virtualId, physicalId, ⟨left, right, ⟨rfl, rfl⟩, hleft, hright⟩,
              eq_false_of_ne_true hnew, rfl⟩
        · rintro ⟨_, _, ⟨_, _, ⟨rfl, rfl⟩, hleft', hright'⟩, hnew, rfl⟩
          obtain rfl := Except.ok.inj (hleft.symm.trans hleft')
          obtain rfl := Except.ok.inj (hright.symm.trans hright')
          simp [hnew]

theorem readEntry_error {m : VirtualMap} {text : List Char} {e : ShardError}
    (h : readEntry m text = .error e) : ∃ message, e = .configuration message := by
  unfold readEntry at h
  cases hcut : cut? '=' text with
  | none =>
    rw [hcut] at h
    cases h
    exact ⟨_, rfl⟩
  | some sides =>
    rw [hcut] at h
    simp only [bind, Except.bind] at h
    split at h
    case h_1 hleft =>
      cases h
      exact readId_error hleft
    split at h
    case h_1 hright =>
      cases h
      exact readId_error hright
    split at h
    · cases h
      exact ⟨_, rfl⟩
    · cases h

/-- Entries are read one after the other as long as their virtual ids differ. -/
theorem foldlM_readEntry_ok_iff {texts : List (List Char)} {m m' : VirtualMap} :
    texts.foldlM readEntry m = .ok m' ↔ ∃ pairs, List.Forall₂ Entry texts pairs
      ∧ (pairs.map Prod.fst).Nodup ∧ (∀ pair ∈ pairs, m.map.contains pair.1 = false)
      ∧ m' = pairs.foldl (fun m pair => m.insert pair.1 pair.2) m := by
  induction texts generalizing m with
  | nil =>
    simp only [List.foldlM_nil, List.forall₂_nil_left_iff, exists_eq_left]
    exact ⟨fun h => ⟨List.nodup_nil, by simp, (Except.ok.inj h).symm⟩, fun h => congrArg _ h.2.2.symm⟩
  | cons text texts ih =>
    rw [List.foldlM_cons]
    constructor
    · intro h
      cases hread : readEntry m text with
      | error e => simp [hread, bind, Except.bind] at h
      | ok next =>
        rw [hread] at h
        obtain ⟨pair, hentry, hnew, rfl⟩ := readEntry_ok_iff.mp hread
        obtain ⟨pairs, hentries, hkeys, hfresh, rfl⟩ := ih.mp h
        have hapart : ∀ other ∈ pairs, other.1 ≠ pair.1 ∧ m.map.contains other.1 = false :=
          fun other hother => Ordered.Map.contains_insert_eq_false.mp (hfresh other hother)
        refine ⟨pair :: pairs, .cons hentry hentries, List.nodup_cons.mpr ⟨?_, hkeys⟩,
          List.forall_mem_cons.mpr ⟨hnew, fun other hother => (hapart other hother).2⟩, rfl⟩
        intro hmem
        obtain ⟨other, hother, heq⟩ := List.mem_map.mp hmem
        exact (hapart other hother).1 heq
    · rintro ⟨_, hentries, hkeys, hfresh, rfl⟩
      cases hentries with
      | @cons _ pair _ pairs hentry hentries =>
        obtain ⟨hfirst, hkeys⟩ := List.nodup_cons.mp hkeys
        obtain ⟨hnew, hfresh⟩ := List.forall_mem_cons.mp hfresh
        rw [readEntry_ok_iff.mpr ⟨pair, hentry, hnew, rfl⟩]
        refine ih.mpr ⟨pairs, hentries, hkeys, fun other hother => ?_, rfl⟩
        refine Ordered.Map.contains_insert_eq_false.mpr ⟨fun heq => hfirst ?_, hfresh other hother⟩
        exact heq ▸ List.mem_map_of_mem hother

theorem foldlM_readEntry_error {texts : List (List Char)} {m : VirtualMap} {e : ShardError}
    (h : texts.foldlM readEntry m = .error e) : ∃ message, e = .configuration message := by
  induction texts generalizing m with
  | nil => cases h
  | cons text texts ih =>
    rw [List.foldlM_cons] at h
    cases hread : readEntry m text with
    | error reason =>
      rw [hread] at h
      cases h
      exact readEntry_error hread
    | ok next =>
      rw [hread] at h
      exact ih h

/-! ## Texts -/

/-- The pieces between the commas, each of them blank or an entry. -/
inductive Pieces : List (List Char) → List (ShardId × ShardId) → Prop
  | nil : Pieces [] []
  | blank {piece : List Char} {pieces : List (List Char)} {pairs : List (ShardId × ShardId)}
      (h : Blanks piece) (rest : Pieces pieces pairs) : Pieces (piece :: pieces) pairs
  | entry {piece : List Char} {pair : ShardId × ShardId} {pieces : List (List Char)}
      {pairs : List (ShardId × ShardId)}
      (h : Entry piece pair) (rest : Pieces pieces pairs) : Pieces (piece :: pieces) (pair :: pairs)

/-- A text that spells pairs of ids in this order. -/
def Written (text : List Char) (pairs : List (ShardId × ShardId)) : Prop :=
  ∃ pieces, text = [','].intercalate pieces ∧ Pieces pieces pairs

theorem Entry.not_comma {text : List Char} {pair : ShardId × ShardId} (h : Entry text pair) :
    ',' ∉ text := by
  obtain ⟨left, right, rfl, hleft, hright⟩ := h
  have hcomma : isBlank ',' = false ∧ ','.isDigit = false ∧ ',' ≠ '+' := by decide
  simp [hleft.not_mem hcomma, hright.not_mem hcomma]

theorem Pieces.not_comma {pieces : List (List Char)} {pairs : List (ShardId × ShardId)}
    (h : Pieces pieces pairs) : ∀ piece ∈ pieces, ',' ∉ piece := by
  induction h with
  | nil => exact List.forall_mem_nil _
  | blank h _ ih =>
    refine List.forall_mem_cons.mpr ⟨fun hmem => ?_, ih⟩
    exact absurd (h _ hmem) (by decide)
  | entry h _ ih => exact List.forall_mem_cons.mpr ⟨h.not_comma, ih⟩

theorem Entry.not_blanks {text : List Char} {pair : ShardId × ShardId} (h : Entry text pair) :
    ¬ Blanks text := by
  obtain ⟨left, right, rfl, -, -⟩ := h
  intro hblank
  exact absurd (hblank '=' (by simp)) (by decide)

/-- To trim the pieces and drop what is empty leaves the entries. -/
theorem pieces_iff_forall₂ {pieces : List (List Char)} {pairs : List (ShardId × ShardId)} :
    Pieces pieces pairs ↔
      List.Forall₂ Entry ((pieces.map trim).filter fun entry => !entry.isEmpty) pairs := by
  induction pieces generalizing pairs with
  | nil =>
    rw [List.map_nil, List.filter_nil, List.forall₂_nil_left_iff]
    exact ⟨fun h => by cases h; rfl, fun h => h ▸ .nil⟩
  | cons piece pieces ih =>
    rw [List.map_cons]
    by_cases hblank : Blanks piece
    · rw [trim_eq_nil_iff.mpr hblank, List.filter_cons_of_neg (by simp), ← ih]
      refine ⟨fun h => ?_, .blank hblank⟩
      cases h with
      | blank _ rest => exact rest
      | entry h => exact absurd hblank h.not_blanks
    · have hkept : (!(trim piece).isEmpty) = true := by simpa [trim_eq_nil_iff] using hblank
      rw [List.filter_cons, if_pos hkept]
      constructor
      · intro h
        cases h with
        | blank h => exact absurd h hblank
        | entry h rest => exact .cons (entry_trim_iff.mpr h) (ih.mp rest)
      · intro h
        cases h with
        | cons h rest => exact .entry (entry_trim_iff.mp h) (ih.mpr rest)

/-- The entries of a text are the pairs it spells. -/
theorem written_iff_forall₂ {text : List Char} {pairs : List (ShardId × ShardId)} :
    Written text pairs ↔ List.Forall₂ Entry (entries text) pairs := by
  rw [entries, splitOn_eq, ← pieces_iff_forall₂]
  constructor
  · rintro ⟨pieces, rfl, h⟩
    by_cases hnone : pieces = []
    · subst hnone
      exact .blank (List.forall_mem_nil _) h
    · rwa [List.splitOn_intercalate ',' h.not_comma hnone]
  · intro h
    exact ⟨_, (List.intercalate_splitOn ',').symm, h⟩

theorem entry_rightUnique : Relator.RightUnique Entry := by
  intro text pair pair' h h'
  obtain ⟨left, right, hcut, hleft, hright⟩ := entry_iff_cut?.mp h
  obtain ⟨left', right', hcut', hleft', hright'⟩ := entry_iff_cut?.mp h'
  obtain ⟨rfl, rfl⟩ := Prod.mk.inj (Option.some.inj (hcut.symm.trans hcut'))
  have hfirst := (readId_ok_iff.mpr hleft).symm.trans (readId_ok_iff.mpr hleft')
  have hsecond := (readId_ok_iff.mpr hright).symm.trans (readId_ok_iff.mpr hright')
  exact Prod.ext (Except.ok.inj hfirst) (Except.ok.inj hsecond)

/-- A text spells one list of pairs at most. -/
theorem Written.unique {text : List Char} {pairs pairs' : List (ShardId × ShardId)}
    (h : Written text pairs) (h' : Written text pairs') : pairs = pairs' :=
  List.right_unique_forall₂' entry_rightUnique (written_iff_forall₂.mp h) (written_iff_forall₂.mp h')

/-! ## Maps -/

theorem foldl_insert (m : VirtualMap) (pairs : List (ShardId × ShardId)) :
    pairs.foldl (fun m pair => m.insert pair.1 pair.2) m
      = ⟨pairs.foldl (fun m pair => m.insert pair.1 pair.2) m.map⟩ := by
  induction pairs generalizing m with
  | nil => rfl
  | cons pair pairs ih => exact ih (m.insert pair.1 pair.2)

theorem toList_ofList_perm {pairs : List (ShardId × ShardId)} (hkeys : (pairs.map Prod.fst).Nodup) :
    (ofList pairs).toList.Perm pairs := by
  have hnone : (∅ : Ordered.Map ShardId ShardId).entries = [] := rfl
  have hperm := Ordered.Map.entries_foldl_insert_perm (m := ∅) hkeys fun _ _ => rfl
  rwa [hnone, List.append_nil] at hperm

theorem eq_of_toList_perm {m m' : VirtualMap} (h : m.toList.Perm m'.toList) : m = m' := by
  cases m
  cases m'
  exact congrArg _ (Ordered.Map.eq_of_entries_perm h)

/-- A text is read if it spells pairs with distinct virtual ids, and as the map of these. -/
theorem read_ok_iff {text : List Char} {m : VirtualMap} :
    read text = .ok m ↔ ∃ pairs, Written text pairs ∧ (pairs.map Prod.fst).Nodup
      ∧ m.toList.Perm pairs := by
  rw [read, foldlM_readEntry_ok_iff]
  refine exists_congr fun pairs => ?_
  rw [← written_iff_forall₂]
  refine and_congr_right fun _ => and_congr_right fun hkeys => ?_
  have hofList : pairs.foldl (fun m pair => m.insert pair.1 pair.2) empty = ofList pairs :=
    foldl_insert empty pairs
  rw [hofList]
  constructor
  · rintro ⟨-, rfl⟩
    exact toList_ofList_perm hkeys
  · intro hperm
    exact ⟨fun _ _ => rfl, eq_of_toList_perm (hperm.trans (toList_ofList_perm hkeys).symm)⟩

/-- Not every text is a map, and every error says that the configuration is wrong. -/
theorem read_error {text : List Char} {e : ShardError} (h : read text = .error e) :
    ∃ message, e = .configuration message :=
  foldlM_readEntry_error h

/-- A text spells one list of pairs at most. It is read exactly if it spells one in which all virtual
ids differ, as the map that has these pairs and no others; then every text that spells the same pairs in
any order is read as the same map. All other texts are configuration errors. -/
theorem read_accepts_grammar (text : List Char) :
    (∀ pairs pairs', Written text pairs → Written text pairs' → pairs = pairs')
    ∧ (∀ m, read text = .ok m ↔
      ∃ pairs, Written text pairs ∧ (pairs.map Prod.fst).Nodup ∧ m.toList.Perm pairs)
    ∧ (∀ pairs, Written text pairs → (pairs.map Prod.fst).Nodup →
      ∃ m, read text = .ok m ∧ m.toList.Perm pairs
        ∧ ∀ text' pairs', Written text' pairs' → pairs'.Perm pairs → read text' = .ok m)
    ∧ ((∀ pairs, Written text pairs → ¬ (pairs.map Prod.fst).Nodup) →
      ∃ message, read text = .error (.configuration message)) := by
  refine ⟨fun pairs pairs' h h' => h.unique h', fun m => read_ok_iff, ?_, ?_⟩
  · intro pairs hwritten hkeys
    have hperm := toList_ofList_perm hkeys
    refine ⟨ofList pairs, read_ok_iff.mpr ⟨pairs, hwritten, hkeys, hperm⟩, hperm, ?_⟩
    intro text' pairs' hwritten' hsame
    have hkeys' : (pairs'.map Prod.fst).Nodup := (hsame.map Prod.fst).nodup_iff.mpr hkeys
    exact read_ok_iff.mpr ⟨pairs', hwritten', hkeys', hperm.trans hsame.symm⟩
  · intro hnone
    cases hread : read text with
    | ok m =>
      obtain ⟨pairs, hwritten, hkeys, -⟩ := read_ok_iff.mp hread
      exact absurd hkeys (hnone pairs hwritten)
    | error e =>
      obtain ⟨message, rfl⟩ := read_error hread
      exact ⟨message, rfl⟩

/-- Two spellings of one map, and a text that maps a virtual id twice, once with leading zeros. -/
theorem read_accepts_grammar_spellings :
    let one := ShardId.ofNat 1
    let two := ShardId.ofNat 2
    let three := ShardId.ofNat 3
    let loose := " +03 = 1 ,, 2=002".toList
    let strict := "2=2,3=1".toList
    let twice := "2=1,02=3".toList
    Written loose [(three, one), (two, two)]
      ∧ (∃ m, read loose = .ok m ∧ m.toList.Perm [(three, one), (two, two)] ∧ read strict = .ok m)
      ∧ ∃ message, read twice = .error (.configuration message) := by
  intro one two three loose strict twice
  have hloose : Written loose [(three, one), (two, two)] :=
    ⟨[" +03 = 1 ".toList, [], " 2=002".toList], by decide,
      .entry ⟨" +03 ".toList, " 1 ".toList, by decide, ShardId.read_ok_iff.mp (by decide),
        ShardId.read_ok_iff.mp (by decide)⟩
      (.blank (List.forall_mem_nil _)
      (.entry ⟨" 2".toList, "002".toList, by decide, ShardId.read_ok_iff.mp (by decide),
        ShardId.read_ok_iff.mp (by decide)⟩ .nil))⟩
  have hstrict : Written strict [(two, two), (three, one)] :=
    ⟨["2=2".toList, "3=1".toList], by decide,
      .entry ⟨['2'], ['2'], by decide, ShardId.read_ok_iff.mp (by decide),
        ShardId.read_ok_iff.mp (by decide)⟩
      (.entry ⟨['3'], ['1'], by decide, ShardId.read_ok_iff.mp (by decide),
        ShardId.read_ok_iff.mp (by decide)⟩ .nil)⟩
  have htwice : Written twice [(two, one), (two, three)] :=
    ⟨["2=1".toList, "02=3".toList], by decide,
      .entry ⟨['2'], ['1'], by decide, ShardId.read_ok_iff.mp (by decide),
        ShardId.read_ok_iff.mp (by decide)⟩
      (.entry ⟨['0', '2'], ['3'], by decide, ShardId.read_ok_iff.mp (by decide),
        ShardId.read_ok_iff.mp (by decide)⟩ .nil)⟩
  obtain ⟨-, -, hreads, -⟩ := read_accepts_grammar loose
  obtain ⟨honly, -, -, hrefuses⟩ := read_accepts_grammar twice
  obtain ⟨m, hread, hperm, hsame⟩ := hreads _ hloose (by decide)
  refine ⟨hloose, ⟨m, hread, hperm, hsame strict _ hstrict (.swap _ _ _)⟩, hrefuses ?_⟩
  intro pairs hwritten
  rw [honly _ _ hwritten htwice]
  decide

end VirtualMap

end ScatterGather
