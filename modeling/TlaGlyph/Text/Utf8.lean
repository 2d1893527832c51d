import TlaGlyph.Text.Basic

namespace TlaGlyph.Text

def encode (text : Text) : ByteArray := (String.ofList text).toUTF8

def decode? (bytes : ByteArray) : Option Text := (String.fromUTF8? bytes).map String.toList

theorem fromUTF8?_toUTF8 (s : String) : String.fromUTF8? s.toUTF8 = some s := by
  rw [String.fromUTF8?, dif_pos (show s.toUTF8.IsValidUTF8 from s.isValidUTF8)]
  rfl

@[simp] theorem decode?_encode (text : Text) : decode? (encode text) = some text := by
  rw [decode?, encode, fromUTF8?_toUTF8, Option.map_some, String.toList_ofList]

theorem encode_of_decode? {bytes : ByteArray} {text : Text} (h : decode? bytes = some text) :
    encode text = bytes := by
  obtain ⟨s, hs, rfl⟩ := Option.map_eq_some_iff.mp h
  rw [String.fromUTF8?] at hs
  split at hs
  · obtain rfl := Option.some.inj hs
    rw [encode, String.ofList_toList]
    rfl
  · cases hs

@[simp] theorem encode_append (first last : Text) :
    encode (first ++ last) = encode first ++ encode last := by
  simp [encode]

theorem size_encode (text : Text) : (encode text).size = utf8Width text := by
  induction text with
  | nil => rfl
  | cons c text ih =>
    have hfirst : (encode [c]).size = c.utf8Size := by
      simp [encode, List.utf8Encode_singleton, List.size_toByteArray]
    rw [← List.singleton_append, encode_append, ByteArray.size_append, ih, hfirst]
    rfl

namespace Lossy

-- How many bytes go on from the first byte of a character, and between which bounds the next one
-- of them lies.
def lead? (first : UInt8) : Option (Nat × UInt8 × UInt8) :=
  if first < 0x80 then some (0, 0x80, 0xBF)
  else if first < 0xC2 then none
  else if first < 0xE0 then some (1, 0x80, 0xBF)
  else if first = 0xE0 then some (2, 0xA0, 0xBF)
  else if first = 0xED then some (2, 0x80, 0x9F)
  else if first < 0xF0 then some (2, 0x80, 0xBF)
  else if first = 0xF0 then some (3, 0x90, 0xBF)
  else if first < 0xF4 then some (3, 0x80, 0xBF)
  else if first = 0xF4 then some (3, 0x80, 0x8F)
  else none

-- The bytes that go on a character that still wants `count` of them.
def tail (low high : UInt8) : Nat → List UInt8 → List UInt8
  | count + 1, byte :: rest =>
    if low ≤ byte ∧ byte ≤ high then byte :: tail 0x80 0xBF count rest else []
  | _, _ => []

-- The first byte gives the highest bits, less those that say how many bytes follow, and every
-- other byte gives six more.
def join (first : UInt8) (tail : List UInt8) : Char :=
  let high := if tail.isEmpty then first.toNat else first.toNat % (1 <<< (6 - tail.length))
  Char.ofNat (tail.foldl (fun value byte => value * 64 + byte.toNat % 64) high)

end Lossy

-- Reads any bytes. What is the beginning of no character, or of one that breaks off, is
-- shown as one replacement character.
def decodeLossy : List UInt8 → Text
  | [] => []
  | first :: rest =>
    match Lossy.lead? first with
    | none => '\uFFFD' :: decodeLossy rest
    | some (count, low, high) =>
      let tail := Lossy.tail low high count rest
      let c := if tail.length = count then Lossy.join first tail else '\uFFFD'
      c :: decodeLossy (rest.drop tail.length)
termination_by bytes => bytes.length
decreasing_by all_goals simp only [List.length_drop, List.length_cons]; omega

end TlaGlyph.Text
