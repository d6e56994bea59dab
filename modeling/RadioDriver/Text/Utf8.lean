
namespace RadioDriver.Text

/-- Where and how bytes stop being UTF-8. -/
inductive Utf8Error
  /-- The bytes from `index` begin no character, the first `length` of them being to blame. -/
  | invalid (index length : Nat)
  /-- The input ends inside the character that begins at `index`. -/
  | incomplete (index : Nat)
deriving DecidableEq, Repr

def Utf8Error.message : Utf8Error → String
  | .invalid index length =>
    s!"invalid utf-8 sequence of {length} bytes from index {index}"
  | .incomplete index => s!"incomplete utf-8 byte sequence from index {index}"

/-- What the bytes at one place hold. -/
inductive Utf8Step
  | char (c : Char) (rest : List UInt8)
  | invalid (length : Nat)
  | incomplete

def continues (b : UInt8) : Bool := 0x80 ≤ b && b ≤ 0xBF

def payload (b : UInt8) : Nat := b.toNat % 64

/-- The bytes that may follow the first byte of a three-byte character; they exclude overlong
forms and surrogates. -/
def secondOfThree (first second : UInt8) : Bool :=
  if first = 0xE0 then 0xA0 ≤ second && second ≤ 0xBF
  else if first = 0xED then 0x80 ≤ second && second ≤ 0x9F
  else continues second

/-- The bytes that may follow the first byte of a four-byte character; they exclude overlong forms
and values above the last code point. -/
def secondOfFour (first second : UInt8) : Bool :=
  if first = 0xF0 then 0x90 ≤ second && second ≤ 0xBF
  else if first = 0xF4 then 0x80 ≤ second && second ≤ 0x8F
  else continues second

def utf8Step (first : UInt8) (rest : List UInt8) : Utf8Step :=
  if first < 0x80 then .char (Char.ofNat first.toNat) rest
  else if 0xC2 ≤ first && first ≤ 0xDF then
    match rest with
    | [] => .incomplete
    | b :: rest =>
      if continues b then .char (Char.ofNat (first.toNat % 32 * 64 + payload b)) rest
      else .invalid 1
  else if 0xE0 ≤ first && first ≤ 0xEF then
    match rest with
    | [] => .incomplete
    | b :: rest =>
      if !secondOfThree first b then .invalid 1
      else match rest with
        | [] => .incomplete
        | c :: rest =>
          if continues c then
            .char (Char.ofNat (first.toNat % 16 * 4096 + payload b * 64 + payload c)) rest
          else .invalid 2
  else if 0xF0 ≤ first && first ≤ 0xF4 then
    match rest with
    | [] => .incomplete
    | b :: rest =>
      if !secondOfFour first b then .invalid 1
      else match rest with
        | [] => .incomplete
        | c :: rest =>
          if !continues c then .invalid 2
          else match rest with
            | [] => .incomplete
            | d :: rest =>
              if continues d then
                .char (Char.ofNat
                  (first.toNat % 8 * 262144 + payload b * 4096 + payload c * 64 + payload d)) rest
              else .invalid 3
  else .invalid 1

theorem utf8Step_length {first : UInt8} {bytes rest : List UInt8} {c : Char}
    (h : utf8Step first bytes = .char c rest) : rest.length ≤ bytes.length := by
  unfold utf8Step at h
  repeat' split at h
  all_goals cases h
  all_goals simp_all
  all_goals omega

/-- The fault of bytes that are not UTF-8, counted from byte `index`. -/
def faultFrom (index : Nat) : List UInt8 → Utf8Error
  | [] => .incomplete index
  | first :: bytes =>
    match h : utf8Step first bytes with
    | .char _ rest =>
      have := utf8Step_length h
      faultFrom (index + (bytes.length + 1 - rest.length)) rest
    | .invalid length => .invalid index length
    | .incomplete => .incomplete index
termination_by bytes => bytes.length
decreasing_by simp; omega

/-- The text that the bytes encode. Decoding fails at the first byte that begins no well-formed
sequence, and tells how many bytes belong to the broken one, or that the input ends inside it. -/
def decodeUtf8 (bytes : ByteArray) : Except Utf8Error String :=
  match String.fromUTF8? bytes with
  | some s => .ok s
  | none => .error (faultFrom 0 bytes.data.toList)

theorem decodeUtf8_toUTF8 (s : String) : decodeUtf8 s.toUTF8 = .ok s := by
  have h : s.toUTF8.IsValidUTF8 := s.isValidUTF8
  rw [decodeUtf8, String.fromUTF8?, dif_pos h]
  rfl

end RadioDriver.Text
