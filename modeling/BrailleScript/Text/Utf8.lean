/-!
# UTF-8 with ill-formed input

Reading bytes that may or may not be UTF-8.  `segments` cuts a byte list into characters and
ill-formed runs, each run being as long as it can be while it still begins some character (a
maximal subpart), and a single byte where no character can begin.  Nothing is lost: every byte
belongs to exactly one segment.
-/

namespace BrailleScript.Text.Utf8

/-- A piece of a byte list: one character, or bytes that form none. -/
inductive Segment where
  | char (c : Char)
  | invalid (bytes : List UInt8)
  deriving Repr, DecidableEq

/-- The bytes of a text. -/
def encode (cs : List Char) : List UInt8 :=
  cs.flatMap String.utf8EncodeChar

/-- A byte that continues a character. -/
def isTail (b : UInt8) : Bool :=
  0x80 ≤ b && b ≤ 0xBF

/-- Whether `b` may follow the lead byte of a character of three or four bytes. -/
def isSecond (lead b : UInt8) : Bool :=
  if lead = 0xE0 then 0xA0 ≤ b && b ≤ 0xBF
  else if lead = 0xED then 0x80 ≤ b && b ≤ 0x9F
  else if lead = 0xF0 then 0x90 ≤ b && b ≤ 0xBF
  else if lead = 0xF4 then 0x80 ≤ b && b ≤ 0x8F
  else isTail b

/-- The six payload bits of a continuation byte. -/
def payload (b : UInt8) : Nat :=
  b.toNat % 0x40

/-- The segment at the lead of a two-byte character, and the bytes after it. -/
def pair (lead : UInt8) : List UInt8 → Segment × List UInt8
  | b :: rest =>
    if isTail b then (.char (Char.ofNat (lead.toNat % 0x20 * 0x40 + payload b)), rest)
    else (.invalid [lead], b :: rest)
  | [] => (.invalid [lead], [])

/-- The segment at the lead of a three-byte character, and the bytes after it. -/
def triple (lead : UInt8) : List UInt8 → Segment × List UInt8
  | b :: rest =>
    if isSecond lead b then
      match rest with
      | c :: rest' =>
        if isTail c then
          (.char (Char.ofNat (lead.toNat % 0x10 * 0x1000 + payload b * 0x40 + payload c)), rest')
        -- what is broken off is one segment, and the byte that breaks it begins the next
        else (.invalid [lead, b], rest)
      | [] => (.invalid [lead, b], [])
    else (.invalid [lead], b :: rest)
  | [] => (.invalid [lead], [])

/-- The segment at the lead of a four-byte character, and the bytes after it. -/
def quadruple (lead : UInt8) : List UInt8 → Segment × List UInt8
  | b :: rest =>
    -- the second byte rules out what would be too long, or no code point
    if isSecond lead b then
      match rest with
      | c :: rest' =>
        if isTail c then
          match rest' with
          | d :: rest'' =>
            if isTail d then
              (.char (Char.ofNat (lead.toNat % 0x08 * 0x40000 + payload b * 0x1000 +
                payload c * 0x40 + payload d)), rest'')
            else (.invalid [lead, b, c], rest')
          | [] => (.invalid [lead, b, c], [])
        else (.invalid [lead, b], rest)
      | [] => (.invalid [lead, b], [])
    else (.invalid [lead], b :: rest)
  | [] => (.invalid [lead], [])

/-- The first segment of a byte list that starts with `lead`, and the bytes after it. -/
def first (lead : UInt8) (rest : List UInt8) : Segment × List UInt8 :=
  if lead < 0x80 then (.char (Char.ofNat lead.toNat), rest)
  else if 0xC2 ≤ lead && lead ≤ 0xDF then pair lead rest
  else if 0xE0 ≤ lead && lead ≤ 0xEF then triple lead rest
  else if 0xF0 ≤ lead && lead ≤ 0xF4 then quadruple lead rest
  else (.invalid [lead], rest)

/-- A character of two bytes takes no more than there are. -/
theorem length_pair_le (lead : UInt8) (rest : List UInt8) :
    (pair lead rest).2.length ≤ rest.length := by
  unfold pair
  repeat' split
  all_goals simp_all

/-- Nor does one of three bytes. -/
theorem length_triple_le (lead : UInt8) (rest : List UInt8) :
    (triple lead rest).2.length ≤ rest.length := by
  unfold triple
  repeat' split
  all_goals simp_all
  all_goals omega

/-- Nor does one of four bytes. -/
theorem length_quadruple_le (lead : UInt8) (rest : List UInt8) :
    (quadruple lead rest).2.length ≤ rest.length := by
  unfold quadruple
  repeat' split
  all_goals simp_all
  all_goals omega

/-- Taking a segment never gives bytes back. -/
theorem length_first_le (lead : UInt8) (rest : List UInt8) :
    (first lead rest).2.length ≤ rest.length := by
  unfold first
  repeat' split
  · simp
  · exact length_pair_le lead rest
  · exact length_triple_le lead rest
  · exact length_quadruple_le lead rest
  · simp

/-- Cuts bytes into characters and ill-formed runs. -/
def segments : List UInt8 → List Segment
  | [] => []
  | lead :: rest =>
    (first lead rest).1 :: segments (first lead rest).2
termination_by bytes => bytes.length
decreasing_by
  have := length_first_le lead rest
  simp only [List.length_cons]
  omega

/-- What a segment shows in text that must be readable: an ill-formed run is one U+FFFD. -/
def Segment.lossy : Segment → Char
  | .char c => c
  | .invalid _ => Char.ofNat 0xFFFD

/-- The characters of the bytes, each ill-formed run replaced by U+FFFD. -/
def decodeLossy (bytes : List UInt8) : List Char :=
  (segments bytes).map Segment.lossy

end BrailleScript.Text.Utf8
