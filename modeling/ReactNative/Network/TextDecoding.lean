import ReactNative.Foundation.PrefixCodes

/-! Both platforms decode what they have, and where this fails they try again without the last
bytes, which are kept for the next chunk. The decoders are parameters that fail exactly on what is
not complete UTF-8. -/
namespace ReactNative

open PrefixCodes List Option

namespace TextDecoding

def encode (text : List Char) : List UInt8 := text.flatMap String.utf8EncodeChar

/-- The decoder gives the text of valid UTF-8, and fails on everything else. -/
def DecodesUTF8 (decode : List UInt8 → Option (List Char)) : Prop :=
  ∀ bytes text, decode bytes = some text ↔ bytes = encode text

variable (decode : List UInt8 → Option (List Char)) (maxCharLength : ℕ)

/-- The loops over the bytes that are removed. The decoder does not fail once all bytes are. -/
def retry (data : List UInt8) (removedBytes : ℕ) : ℕ → Option (List Char × ℕ)
  | 0 => none
  | tries + 1 =>
    match decode (data.take (data.length - removedBytes)) with
    | some text => some (text, removedBytes)
    | none => retry data (removedBytes + 1) tries

structure Chunk where
  data : List UInt8
  length : ℕ
  fits : length ≤ data.length

def Chunk.bytes (chunk : Chunk) : List UInt8 := chunk.data.take chunk.length

/-- `decodeNext` of Android, with the remainder or null. -/
def decodeNext (remainder : Option (List UInt8)) (chunk : Chunk) :
    List Char × Option (List UInt8) :=
  let decodeData := remainder.getD [] ++ chunk.bytes
  match retry decode decodeData 0 4 with
  | some (result, remainderLength) =>
    (result, if 0 < remainderLength then
      some (decodeData.drop (decodeData.length - remainderLength)) else none)
  | none => ([], none)

/-- `decodeTextData` of iOS for UTF-8 with a buffer, which may return nil. -/
def decodeTextData (inputCarryData data : List UInt8) : Option (List Char) × List UInt8 :=
  let currentCarryData := inputCarryData ++ data
  let encodedResponse := (decode currentCarryData).or <|
    if 0 < data.length then
      (retry decode currentCarryData 1 (maxCharLength - 1)).map Prod.fst
    else none
  let encodedResponseLength := (encode (encodedResponse.getD [])).length
  (encodedResponse,
    if encodedResponseLength ≤ currentCarryData.length then
      currentCarryData.drop encodedResponseLength else [])

/-- What successive calls return, and what the last one leaves. -/
def successive {σ κ τ : Type} (call : σ → κ → τ × σ) (state : σ) : List κ → List τ × σ
  | [] => ([], state)
  | chunk :: rest =>
    ((call state chunk).1 :: (successive call (call state chunk).2 rest).1,
      (successive call (call state chunk).2 rest).2)

/-! ## UTF-8 -/

theorem utf8_prefixFree : PrefixFree String.utf8EncodeChar where
  nonempty letter := String.utf8EncodeChar_ne_nil
  unique {letter other} := by
    rintro ⟨rest, same⟩
    have decoded := @ByteArray.utf8DecodeChar?_utf8EncodeChar_append rest.toByteArray letter
    rw [← toByteArray_append, same] at decoded
    have whole := @ByteArray.utf8DecodeChar?_utf8EncodeChar_append ByteArray.empty other
    rw [ByteArray.append_empty, decoded] at whole
    exact some.inj whole

def utf8Decode (bytes : List UInt8) : Option (List Char) :=
  bytes.toByteArray.utf8Decode?.map Array.toList

theorem utf8Decode_decodes : DecodesUTF8 utf8Decode := by
  intro bytes text
  constructor
  · intro decoded
    obtain ⟨array, found, rfl⟩ := map_eq_some_iff.1 decoded
    have encoded := @ByteArray.utf8Encode_get_utf8Decode? bytes.toByteArray (by simp [found])
    simp only [found, get_some] at encoded
    have same := congrArg (fun array => array.data.toList) encoded
    simpa [utf8Encode, encode] using same.symm
  · rintro rfl
    change (text.utf8Encode.utf8Decode?).map Array.toList = some text
    simp

variable {decode} {maxCharLength} {rest data : List UInt8} {read unread text : List Char}

theorem length_lt (begins : Begins String.utf8EncodeChar rest unread) : rest.length < 4 := by
  cases unread with
  | nil => simp [prefix_nil.1 begins.starts]
  | cons letter unread =>
    have short := begins.short letter rfl
    rw [String.length_utf8EncodeChar] at short
    have := letter.utf8Size_le_four
    omega

variable (utf8 : DecodesUTF8 decode) (begins : Begins String.utf8EncodeChar rest unread)
  (cut : data = encode read ++ rest)

include utf8 begins cut

theorem decode_removed {removedBytes : ℕ} (fewer : removedBytes < rest.length) :
    decode (data.take (data.length - removedBytes)) = none := by
  rw [eq_none_iff_forall_ne_some]
  intro other decoded
  have whole := (utf8 _ _).1 decoded
  have length : data.length - removedBytes = (encode read).length + (rest.length - removedBytes) := by
    rw [cut, length_append]
    omega
  rw [length, cut, take_length_add_append] at whole
  refine begins.cut_ne utf8_prefixFree ⟨_, take_append_drop _ _⟩ ?_ other whole
  simp only [ne_eq, take_eq_nil_iff, not_or]
  exact ⟨by omega, ne_nil_of_length_pos (by omega)⟩

theorem retry_eq {removedBytes tries : ℕ} (fewer : removedBytes ≤ rest.length)
    (enough : rest.length < removedBytes + tries) :
    retry decode data removedBytes tries = some (read, rest.length) := by
  induction tries generalizing removedBytes with
  | zero => omega
  | succ tries ih =>
    rw [retry]
    rcases Nat.lt_or_eq_of_le fewer with more | rfl
    · rw [decode_removed utf8 begins cut more]
      exact ih more (by omega)
    · have all : decode (data.take (data.length - rest.length)) = some read := by
        simpa [cut] using (utf8 _ _).2 rfl
      rw [all]

theorem decodeNext_eq {remainder : Option (List UInt8)} {chunk : Chunk}
    (whole : remainder.getD [] ++ chunk.bytes = data) :
    decodeNext decode remainder chunk = (read, if rest = [] then none else some rest) := by
  have retried : retry decode data 0 4 = some (read, rest.length) :=
    retry_eq utf8 begins cut (Nat.zero_le _) (by have := length_lt begins; omega)
  simp only [decodeNext, whole, retried]
  simp only [cut, length_append, Nat.add_sub_cancel, drop_left, length_pos_iff, ne_eq, ite_not]

theorem decodeTextData_eq {inputCarryData chunk : List UInt8} (enough : 4 ≤ maxCharLength)
    (carried : Begins String.utf8EncodeChar inputCarryData text) (known : text = read ++ unread)
    (whole : inputCarryData ++ chunk = data) :
    (decodeTextData decode maxCharLength inputCarryData chunk).1.getD [] = read ∧
      (decodeTextData decode maxCharLength inputCarryData chunk).2 = rest := by
  have short := length_lt begins
  suffices decoded : (decode data).or (if 0 < chunk.length then
      (retry decode data 1 (maxCharLength - 1)).map Prod.fst else none) = some read ∨
      (decode data).or (if 0 < chunk.length then
        (retry decode data 1 (maxCharLength - 1)).map Prod.fst else none) = none ∧ read = [] by
    rcases decoded with decoded | ⟨decoded, rfl⟩
    · simp only [decodeTextData, whole, decoded]
      simp [cut]
    · simp only [decodeTextData, whole, decoded]
      simp [cut, encode]
  by_cases done : rest = []
  · left
    rw [(utf8 data read).2 (by simpa [done] using cut), some_or]
  · have failed : decode data = none := by
      simpa using decode_removed utf8 begins cut (length_pos_iff.2 done)
    rw [failed, none_or]
    by_cases more : 0 < chunk.length
    · left
      rw [if_pos more, retry_eq utf8 begins cut (length_pos_iff.2 done) (by omega)]
      rfl
    · -- Nothing has come, so what has been carried is not a character yet.
      right
      rw [if_neg more]
      refine ⟨rfl, ?_⟩
      cases read with
      | nil => rfl
      | cons letter read =>
        have := carried.short letter (by simp [known])
        have := congrArg List.length (whole.trans cut)
        simp only [encode, flatMap_cons, length_append] at this
        omega

omit utf8 begins cut

variable {σ κ τ : Type} {call : σ → κ → τ × σ} {bytes : κ → List UInt8} {shown : τ → List Char}
  {holding : List UInt8 → σ}

theorem successive_eq (step : ∀ pending chunk read unread rest,
      Begins String.utf8EncodeChar pending (read ++ unread) →
      Begins String.utf8EncodeChar rest unread → pending ++ bytes chunk = encode read ++ rest →
      shown (call (holding pending) chunk).1 = read ∧
        (call (holding pending) chunk).2 = holding rest) (chunks : List κ)
    {pending : List UInt8} (begins : Begins String.utf8EncodeChar pending text)
    (whole : pending ++ chunks.flatMap bytes = encode text) :
    (successive call (holding pending) chunks).1.flatMap shown = text ∧
      (successive call (holding pending) chunks).2 = holding [] := by
  induction chunks generalizing pending text with
  | nil =>
    rw [flatMap_nil, append_nil] at whole
    subst whole
    obtain rfl := begins.eq_nil
    exact ⟨rfl, rfl⟩
  | cons chunk chunks ih =>
    rw [flatMap_cons, ← append_assoc] at whole
    obtain ⟨read, unread, rest, rfl, cut, later⟩ :=
      exists_cut utf8_prefixFree (whole ▸ prefix_append (pending ++ bytes chunk) _)
    obtain ⟨first, left⟩ := step pending chunk read unread rest begins later cut
    have remaining : rest ++ chunks.flatMap bytes = encode unread := by
      simp only [cut, encode, flatMap_append, append_assoc] at whole
      exact append_cancel_left whole
    obtain ⟨texts, last⟩ := ih later remaining
    simp only [successive, left, flatMap_cons, first]
    exact ⟨by rw [texts], last⟩

/-- **Text in chunks**: however the bytes of a text are cut, the strings of successive calls make up
the text on both platforms, and at the end no bytes are pending. -/
theorem decode_chunks (utf8 : DecodesUTF8 decode) (enough : 4 ≤ maxCharLength) (text : List Char) :
    (∀ chunks : List Chunk, chunks.flatMap Chunk.bytes = encode text →
      (successive (decodeNext decode) none chunks).1.flatten = text ∧
        (successive (decodeNext decode) none chunks).2 = none) ∧
    ∀ chunks : List (List UInt8), chunks.flatten = encode text →
      ((successive (decodeTextData decode maxCharLength) [] chunks).1.flatMap (·.getD [])) = text ∧
        (successive (decodeTextData decode maxCharLength) [] chunks).2 = [] := by
  constructor
  · intro chunks whole
    rw [← flatMap_id']
    refine @successive_eq _ _ _ _ (decodeNext decode) Chunk.bytes id
      (fun rest => if rest = [] then none else some rest) ?_ chunks [] (begins_nil utf8_prefixFree)
      whole
    intro pending chunk read unread rest _ begins cut
    have held : (if pending = [] then none else some pending).getD [] = pending := by
      split <;> simp_all
    rw [decodeNext_eq utf8 begins cut (by rw [held])]
    exact ⟨rfl, rfl⟩
  · intro chunks whole
    exact @successive_eq _ _ _ _ (decodeTextData decode maxCharLength) id (·.getD []) id
      (fun pending chunk read unread rest carried begins cut =>
        decodeTextData_eq utf8 begins cut enough carried rfl rfl) chunks []
      (begins_nil utf8_prefixFree) (by simpa using whole)

theorem decode_chunks_split : (successive (decodeNext utf8Decode) none
      [⟨[195], 1, le_rfl⟩, ⟨[169, 0], 1, by decide⟩]).1.flatten = ['é'] ∧
    (successive (decodeTextData utf8Decode 6) [] [[195], [169]]).1.flatMap (·.getD []) = ['é'] :=
  ⟨((decode_chunks utf8Decode_decodes (le_refl 4) ['é']).1 _ (by decide)).1,
    ((decode_chunks utf8Decode_decodes (by decide) ['é']).2 _ (by decide)).1⟩

end TextDecoding

end ReactNative

