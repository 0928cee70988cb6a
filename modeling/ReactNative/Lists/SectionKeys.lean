import Mathlib.Data.List.Nodup
import ReactNative.Lists.SectionListFlattening

/-! The key of an entry joins that of its section and that of the item, or a word for a header or
footer, by a colon. The parts may have colons and the words of their own, and then two entries can
have one key. -/
namespace ReactNative

open List

namespace VirtualizedSectionList

variable {Data Item : Type} (props : SectionListProps Data Item)
  (sections : List (SectionBase Data Item))

def keyExtractor (index : ℤ) : String :=
  match subExtractor props sections index with
  | some info => if info.key = "" then toString index else info.key
  | none => toString index

variable (sect : SectionBase Data Item)

def itemKey (rowIndex : ℕ) : String :=
  sect.keyExtractor.getD props.keyExtractor (props.getItem sect.data rowIndex) rowIndex

def FlatEntry.sectionIndex : FlatEntry → ℕ
  | .header s | .row s _ | .footer s => s

/-- What comes after the key of the section. -/
def entrySuffix : FlatEntry → String
  | .header _ => "header"
  | .row _ r => itemKey props sect r
  | .footer _ => "footer"

def sectionEntries (s : ℕ) (sect : SectionBase Data Item) : List FlatEntry :=
  .header s :: (range (props.getItemCount sect.data)).map (.row s) ++ [.footer s]

def SectionKeysDistinct : Prop :=
  ∀ (s t : ℕ) (sect other : SectionBase Data Item), sections[s]? = some sect →
    sections[t]? = some other → sectionKey sect s = sectionKey other t → s = t

def ItemKeysDistinct : Prop :=
  ∀ sect ∈ sections, ∀ r q, r < props.getItemCount sect.data → q < props.getItemCount sect.data →
    itemKey props sect r = itemKey props sect q → r = q

/-- No item key is the word for a header or a footer, and none goes on where the key of its section is
continued by that of another one, with an entry of that one. -/
structure KeysSeparate : Prop where
  words : ∀ sect ∈ sections, ∀ r, r < props.getItemCount sect.data →
    itemKey props sect r ≠ "header" ∧ itemKey props sect r ≠ "footer"
  parts : ∀ (s t : ℕ) (sect other : SectionBase Data Item) (rest : String),
    sections[s]? = some sect → sections[t]? = some other →
    sectionKey other t = sectionKey sect s ++ ":" ++ rest →
    ∀ r, r < props.getItemCount sect.data → ∀ entry ∈ sectionEntries props t other,
      itemKey props sect r ≠ rest ++ ":" ++ entrySuffix props other entry

theorem joined_eq {first second left right : String}
    (same : first ++ ":" ++ left = second ++ ":" ++ right) :
    first = second ∧ left = right ∨
      (∃ rest, second = first ++ ":" ++ rest ∧ left = rest ++ ":" ++ right) ∨
      ∃ rest, first = second ++ ":" ++ rest ∧ right = rest ++ ":" ++ left := by
  have lists : first.toList ++ ':' :: left.toList = second.toList ++ ':' :: right.toList := by
    simpa [String.toList_append] using congrArg String.toList same
  -- the rest between the two colons, as a string
  have joined {longer shorter behind before : String} {middle : List Char}
      (isLonger : longer.toList = shorter.toList ++ ':' :: middle)
      (isBefore : before.toList = middle ++ ':' :: behind.toList) :
      ∃ rest, longer = shorter ++ ":" ++ rest ∧ before = rest ++ ":" ++ behind := by
    refine ⟨String.ofList middle, ?_, ?_⟩
    · rw [← String.toList_inj]
      simp [String.toList_append, isLonger]
    · rw [← String.toList_inj]
      simp [String.toList_append, isBefore]
  rcases append_eq_append_iff.mp lists with ⟨between, isSecond, isLeft⟩ | ⟨between, isFirst, isRight⟩
  · cases between with
    | nil =>
      rw [append_nil, String.toList_inj] at isSecond
      obtain ⟨-, sameTail⟩ := List.cons.inj isLeft
      exact .inl ⟨isSecond.symm, String.toList_inj.mp sameTail⟩
    | cons colon middle =>
      obtain ⟨rfl, isTail⟩ := List.cons.inj isLeft
      exact .inr (.inl (joined isSecond isTail))
  · cases between with
    | nil =>
      rw [append_nil, String.toList_inj] at isFirst
      obtain ⟨-, sameTail⟩ := List.cons.inj isRight
      exact .inl ⟨isFirst, (String.toList_inj.mp sameTail).symm⟩
    | cons colon middle =>
      obtain ⟨rfl, isTail⟩ := List.cons.inj isRight
      exact .inr (.inr (joined isFirst isTail))

theorem word_ne_joined {word rest right : String} (plain : ':' ∉ word.toList) :
    word ≠ rest ++ ":" ++ right := by
  rintro rfl
  apply plain
  simp [String.toList_append]

variable {props sections}

/-! ### The entries and their keys -/

theorem flattenFrom_cons (first : ℕ) (sect : SectionBase Data Item)
    (rest : List (SectionBase Data Item)) :
    flattenFrom props first (sect :: rest) =
      sectionEntries props first sect ++ flattenFrom props (first + 1) rest := by
  rw [flattenFrom, sectionEntries, append_assoc]
  rfl

variable {s : ℕ} {sect : SectionBase Data Item} {entry : FlatEntry}

theorem mem_sectionEntries :
    entry ∈ sectionEntries props s sect ↔ entry = .header s ∨ entry = .footer s ∨
      ∃ r, r < props.getItemCount sect.data ∧ entry = .row s r := by
  simp only [sectionEntries, cons_append, mem_cons, mem_append, mem_map,
    mem_range, not_mem_nil, or_false]
  constructor
  · rintro (isHeader | ⟨r, inside, rfl⟩ | isFooter)
    · exact .inl isHeader
    · exact .inr (.inr ⟨r, inside, rfl⟩)
    · exact .inr (.inl isFooter)
  · rintro (isHeader | isFooter | ⟨r, inside, rfl⟩)
    · exact .inl isHeader
    · exact .inr (.inr isFooter)
    · exact .inr (.inl ⟨r, inside, rfl⟩)

theorem sectionIndex_of_mem
    (member : entry ∈ sectionEntries props s sect) : entry.sectionIndex = s := by
  rcases mem_sectionEntries.mp member with rfl | rfl | ⟨r, -, rfl⟩ <;> rfl

theorem mem_flattenFrom {first : ℕ} : entry ∈ flattenFrom props first sections ↔
      ∃ j sect, sections[j]? = some sect ∧ entry ∈ sectionEntries props (first + j) sect := by
  induction sections generalizing first with
  | nil => simp [flattenFrom]
  | cons sect _ ih =>
    rw [flattenFrom_cons, mem_append, ih]
    constructor
    · rintro (here | ⟨j, other, there, member⟩)
      · exact ⟨0, sect, rfl, here⟩
      · exact ⟨j + 1, other, there, by rwa [Nat.add_right_comm, Nat.add_assoc] at member⟩
    · rintro ⟨j, other, there, member⟩
      cases j with
      | zero =>
        cases there
        exact .inl member
      | succ j => exact .inr ⟨j, other, there, by rwa [Nat.add_right_comm, Nat.add_assoc]⟩

theorem mem_flatten : entry ∈ flatten props sections ↔
      ∃ s sect, sections[s]? = some sect ∧ entry ∈ sectionEntries props s sect := by
  rw [flatten, mem_flattenFrom]
  simp only [Nat.zero_add]

theorem sectionEntries_nodup (s : ℕ) (sect : SectionBase Data Item) :
    (sectionEntries props s sect).Nodup := by
  have rows : ((range (props.getItemCount sect.data)).map (FlatEntry.row s)).Nodup :=
    List.Nodup.map (fun _ _ same => (FlatEntry.row.inj same).2) nodup_range
  simp [sectionEntries, rows, nodup_append]

theorem flattenFrom_nodup (first : ℕ) : (flattenFrom props first sections).Nodup := by
  induction sections generalizing first with
  | nil => exact nodup_nil
  | cons sect _ ih =>
    rw [flattenFrom_cons, nodup_append]
    refine ⟨sectionEntries_nodup first sect, ih (first + 1), ?_⟩
    rintro entry here _ later rfl
    obtain ⟨j, other, -, member⟩ := mem_flattenFrom.mp later
    have sameIndex := (sectionIndex_of_mem here).symm.trans (sectionIndex_of_mem member)
    omega

theorem keyExtractor_eq {k : ℕ}
    (there : sections[s]? = some sect) (isEntry : entry ∈ sectionEntries props s sect)
    (atIndex : (flatten props sections)[k]? = some entry) :
    keyExtractor props sections k = sectionKey sect s ++ ":" ++ entrySuffix props sect entry := by
  have info : subExtractor props sections k = reportedInfo props sections entry := by
    rw [subExtractor, ← Option.bind_some (f := reportedInfo props sections), ← atIndex]
    exact subExtractorFrom_eq 0 k [] sections rfl
  obtain ⟨found, isFound, isKey⟩ : ∃ found, reportedInfo props sections entry = some found ∧
      found.key = sectionKey sect s ++ ":" ++ entrySuffix props sect entry := by
    rcases mem_sectionEntries.mp isEntry with rfl | rfl | ⟨r, -, rfl⟩
    · refine ⟨_, by rw [reportedInfo, infoOf, there, Option.map_some], ?_⟩
      exact (String.append_assoc.trans (congrArg _ (by decide : ":" ++ "header" = ":header"))).symm
    · refine ⟨_, by rw [reportedInfo, infoOf, there, Option.map_some], ?_⟩
      exact (String.append_assoc.trans (congrArg _ (by decide : ":" ++ "footer" = ":footer"))).symm
    · exact ⟨_, by rw [reportedInfo, there, Option.map_some], rfl⟩
  have someKey : found.key ≠ "" := by
    rw [isKey]
    intro empty
    have none_left := congrArg String.toList empty
    simp [String.toList_append] at none_left
  rw [keyExtractor, info, isFound]
  dsimp only
  rw [if_neg someKey, isKey]

theorem entrySuffix_inj (itemKeys : ItemKeysDistinct props sections)
    (separate : KeysSeparate props sections)
    {next : FlatEntry} (member : sect ∈ sections) (isEntry : entry ∈ sectionEntries props s sect)
    (isNext : next ∈ sectionEntries props s sect)
    (same : entrySuffix props sect entry = entrySuffix props sect next) : entry = next := by
  have words := separate.words sect member
  rcases mem_sectionEntries.mp isEntry with rfl | rfl | ⟨r, inside, rfl⟩ <;>
    rcases mem_sectionEntries.mp isNext with rfl | rfl | ⟨q, insideToo, rfl⟩
  · rfl
  · exact absurd same (by decide : "header" ≠ "footer")
  · exact absurd same.symm (words q insideToo).1
  · exact absurd same (by decide : "footer" ≠ "header")
  · rfl
  · exact absurd same.symm (words q insideToo).2
  · exact absurd same (words r inside).1
  · exact absurd same (words r inside).2
  · rw [itemKeys sect member r q inside insideToo same]

theorem entry_unique (sectionKeys : SectionKeysDistinct sections)
    (itemKeys : ItemKeysDistinct props sections) (separate : KeysSeparate props sections)
    {t : ℕ} {other : SectionBase Data Item} {next : FlatEntry}
    (there : sections[s]? = some sect) (thereToo : sections[t]? = some other)
    (isEntry : entry ∈ sectionEntries props s sect) (isNext : next ∈ sectionEntries props t other)
    (sameKey : sectionKey sect s ++ ":" ++ entrySuffix props sect entry =
      sectionKey other t ++ ":" ++ entrySuffix props other next) : entry = next := by
  -- an entry of one section goes on with one of another only if it is a row
  have apart {s t : ℕ} {sect other : SectionBase Data Item} {entry next : FlatEntry} {rest : String}
      (there : sections[s]? = some sect) (thereToo : sections[t]? = some other)
      (isEntry : entry ∈ sectionEntries props s sect)
      (isNext : next ∈ sectionEntries props t other)
      (isKey : sectionKey other t = sectionKey sect s ++ ":" ++ rest) :
      entrySuffix props sect entry ≠ rest ++ ":" ++ entrySuffix props other next := by
    rcases mem_sectionEntries.mp isEntry with rfl | rfl | ⟨r, inside, rfl⟩
    · exact word_ne_joined (show ':' ∉ "header".toList by decide)
    · exact word_ne_joined (show ':' ∉ "footer".toList by decide)
    · exact separate.parts s t sect other rest there thereToo isKey r inside next isNext
  rcases joined_eq sameKey with ⟨sameSection, sameSuffix⟩ | ⟨rest, isKey, isSuffix⟩ |
    ⟨rest, isKey, isSuffix⟩
  · obtain rfl := sectionKeys s t sect other there thereToo sameSection
    obtain rfl : sect = other := Option.some_inj.mp (there.symm.trans thereToo)
    exact entrySuffix_inj itemKeys separate (mem_of_getElem? there) isEntry isNext sameSuffix
  · exact absurd isSuffix (apart there thereToo isEntry isNext isKey)
  · exact absurd isSuffix (apart thereToo there isNext isEntry isKey)

theorem parts_of_getElem? {k : ℕ} (atIndex : (flatten props sections)[k]? = some entry) :
    ∃ s sect, sections[s]? = some sect ∧ entry ∈ sectionEntries props s sect :=
  mem_flatten.mp (mem_of_getElem? atIndex)

variable (props sections) in
/-- The keys of all indices are distinct exactly if those of sections and items stay separate when they
are joined. -/
theorem keys_distinct_iff (sectionKeys : SectionKeysDistinct sections)
    (itemKeys : ItemKeysDistinct props sections) :
    (∀ k l : ℕ, k < (computeState props (some sections)).itemCount →
      l < (computeState props (some sections)).itemCount →
        keyExtractor props sections k = keyExtractor props sections l → k = l) ↔
      KeysSeparate props sections := by
  rw [(computeState_eq sections).1]
  constructor
  · intro distinct
    -- two entries with one key are at one index
    have unique {s t : ℕ} {sect other : SectionBase Data Item} {entry next : FlatEntry}
        (there : sections[s]? = some sect) (thereToo : sections[t]? = some other)
        (isEntry : entry ∈ sectionEntries props s sect)
        (isNext : next ∈ sectionEntries props t other)
        (sameKey : sectionKey sect s ++ ":" ++ entrySuffix props sect entry =
          sectionKey other t ++ ":" ++ entrySuffix props other next) : entry = next := by
      obtain ⟨k, atIndex⟩ := mem_iff_getElem?.mp (mem_flatten.mpr ⟨s, sect, there, isEntry⟩)
      obtain ⟨l, atNext⟩ := mem_iff_getElem?.mp (mem_flatten.mpr ⟨t, other, thereToo, isNext⟩)
      have sameIndex := distinct k l (List.getElem?_eq_some_iff.mp atIndex).1
        (List.getElem?_eq_some_iff.mp atNext).1
        (by rw [keyExtractor_eq there isEntry atIndex, keyExtractor_eq thereToo isNext atNext, sameKey])
      rw [sameIndex, atNext, Option.some_inj] at atIndex
      exact atIndex.symm
    constructor
    · intro sect member r inside
      obtain ⟨s, there⟩ := mem_iff_getElem?.mp member
      have isRow := mem_sectionEntries.mpr (.inr (.inr ⟨r, inside, rfl⟩) :
        FlatEntry.row s r = .header s ∨ FlatEntry.row s r = .footer s ∨ _)
      constructor
      · intro isWord
        cases unique there there isRow (mem_sectionEntries.mpr (.inl rfl)) (congrArg _ isWord)
      · intro isWord
        cases unique there there isRow (mem_sectionEntries.mpr (.inr (.inl rfl))) (congrArg _ isWord)
    · intro s t sect other rest there thereToo isKey r inside entry isEntry isSuffix
      have isRow := mem_sectionEntries.mpr (.inr (.inr ⟨r, inside, rfl⟩) :
        FlatEntry.row s r = .header s ∨ FlatEntry.row s r = .footer s ∨ _)
      have same := unique there thereToo isRow isEntry (by
        rw [entrySuffix, isSuffix, isKey]
        simp only [String.append_assoc])
      -- so the two sections are one, whose key would go on behind itself
      obtain rfl : s = t := by
        rw [← sectionIndex_of_mem isEntry, ← same]
        rfl
      obtain rfl : sect = other := Option.some_inj.mp (there.symm.trans thereToo)
      have longer := congrArg (fun key => key.toList.length) isKey
      simp [String.toList_append] at longer
  · intro separate k l inside insideToo sameKey
    obtain ⟨s, sect, there, isEntry⟩ := parts_of_getElem? (getElem?_eq_getElem inside)
    obtain ⟨t, other, thereToo, isNext⟩ := parts_of_getElem? (getElem?_eq_getElem insideToo)
    rw [keyExtractor_eq there isEntry (getElem?_eq_getElem inside),
      keyExtractor_eq thereToo isNext (getElem?_eq_getElem insideToo)] at sameKey
    have same := entry_unique sectionKeys itemKeys separate there thereToo isEntry isNext sameKey
    exact ((flattenFrom_nodup 0).getElem_inj_iff).mp same

def wordSections : SectionListProps (List String) String where
  getItem := at?
  getItemCount := List.length
  keyExtractor item _ := item.getD ""
  length := List.length

theorem oneSection_distinct (word : String) :
    SectionKeysDistinct [({ data := [word] } : SectionBase (List String) String)] ∧
      ItemKeysDistinct wordSections [{ data := [word] }] := by
  constructor
  · intro s t sect other there thereToo _
    have first := (List.getElem?_eq_some_iff.mp there).1
    have second := (List.getElem?_eq_some_iff.mp thereToo).1
    simp only [length_singleton] at first second
    omega
  · intro sect member r q inside insideToo _
    rw [mem_singleton.mp member] at inside insideToo
    simp only [wordSections, length_singleton] at inside insideToo
    omega

theorem keys_distinct_iff_oneSection :
    (∀ k l : ℕ, k < (computeState wordSections (some [{ data := ["word"] }])).itemCount →
      l < (computeState wordSections (some [{ data := ["word"] }])).itemCount →
        keyExtractor wordSections [{ data := ["word"] }] k =
          keyExtractor wordSections [{ data := ["word"] }] l → k = l) ↔
      KeysSeparate wordSections [{ data := ["word"] }] :=
  keys_distinct_iff wordSections _ (oneSection_distinct "word").1 (oneSection_distinct "word").2

theorem header_keyed_twice :
    SectionKeysDistinct [({ data := ["header"] } : SectionBase (List String) String)] ∧
    ItemKeysDistinct wordSections [{ data := ["header"] }] ∧
    ¬∀ k l : ℕ, k < (computeState wordSections (some [{ data := ["header"] }])).itemCount →
      l < (computeState wordSections (some [{ data := ["header"] }])).itemCount →
        keyExtractor wordSections [{ data := ["header"] }] k =
          keyExtractor wordSections [{ data := ["header"] }] l → k = l := by
  refine ⟨(oneSection_distinct "header").1, (oneSection_distinct "header").2, fun distinct => ?_⟩
  exact absurd (distinct 0 1 (by decide) (by decide) (by decide +kernel)) (by decide)

end VirtualizedSectionList

end ReactNative


