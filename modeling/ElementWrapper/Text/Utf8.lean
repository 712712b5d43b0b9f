import ElementWrapper.Text.Basic

/-!
UTF-8. `decode` reads bytes strictly and tells where they break the encoding; `decodeLossy` puts the
replacement character in place of every longest beginning of a broken sequence. `encode` writes the
bytes of a text, which is possible unless the text holds a surrogate.
-/

namespace ElementWrapper.Utf8

/-- What is wrong with a byte sequence. -/
inductive Fault where
  | start
  | continuation
  | truncated
  deriving DecidableEq, Repr

/-- A fault described in words. -/
def Fault.message : Fault → Text
  | start => "invalid start byte"
  | continuation => "invalid continuation byte"
  | truncated => "unexpected end of data"

/-- The bytes that break the encoding: where they begin, how many they are, and which is the
first. -/
structure DecodeError where
  fault : Fault
  position : Nat
  length : Nat
  first : UInt8
  deriving DecidableEq, Repr

/-- A byte that can only stand inside a sequence. -/
def isContinuation (b : UInt8) : Bool := 0x80 ≤ b && b < 0xC0

/-- The second byte of a sequence is a continuation that neither makes the sequence longer than
needed nor leads to a surrogate or beyond the last code point. -/
def isSecond (first second : UInt8) : Bool :=
  isContinuation second &&
    (first != 0xE0 || 0xA0 ≤ second) && (first != 0xED || second < 0xA0) &&
    (first != 0xF0 || 0x90 ≤ second) && (first != 0xF4 || second < 0x90)

/-- The bits that a continuation carries. -/
def low (b : UInt8) : Nat := b.toNat - 0x80

/-- The character at the beginning of nonempty bytes with the number of further bytes that it takes,
or the fault there with the number of bytes to blame. -/
def readChar (first : UInt8) (rest : List UInt8) : Except (Fault × Nat) (Char × Nat) :=
  if first < 0x80 then .ok (Char.ofNat first.toNat, 0)
  else if first < 0xC2 then .error (.start, 1)
  else if first < 0xE0 then
    match rest with
    | [] => .error (.truncated, 1)
    | b :: _ =>
      if isContinuation b then .ok (Char.ofNat ((first.toNat - 0xC0) * 64 + low b), 1)
      else .error (.continuation, 1)
  else if first < 0xF0 then
    match rest with
    | [] => .error (.truncated, 1)
    | b :: rest =>
      if !isSecond first b then .error (.continuation, 1)
      else match rest with
        | [] => .error (.truncated, 2)
        | c :: _ =>
          if isContinuation c then
            .ok (Char.ofNat (((first.toNat - 0xE0) * 64 + low b) * 64 + low c), 2)
          else .error (.continuation, 2)
  else if first < 0xF5 then
    match rest with
    | [] => .error (.truncated, 1)
    | b :: rest =>
      if !isSecond first b then .error (.continuation, 1)
      else match rest with
        | [] => .error (.truncated, 2)
        | c :: rest =>
          if !isContinuation c then .error (.continuation, 2)
          else match rest with
            | [] => .error (.truncated, 3)
            | d :: _ =>
              if isContinuation d then
                .ok (Char.ofNat
                  ((((first.toNat - 0xF0) * 64 + low b) * 64 + low c) * 64 + low d), 3)
              else .error (.continuation, 3)
  else .error (.start, 1)

/-- The characters of bytes that stand at a position. -/
def decodeFrom (position : Nat) : List UInt8 → Except DecodeError (List Char)
  | [] => .ok []
  | first :: rest =>
    match readChar first rest with
    | .error (fault, length) => .error ⟨fault, position, length, first⟩
    | .ok (c, more) => (c :: ·) <$> decodeFrom (position + more + 1) (rest.drop more)
termination_by bytes => bytes.length

/-- The characters of bytes. -/
def decode (bytes : List UInt8) : Except DecodeError (List Char) := decodeFrom 0 bytes

/-- The characters of bytes, with the replacement character for what breaks the encoding. -/
def decodeLossy : List UInt8 → List Char
  | [] => []
  | first :: rest =>
    match readChar first rest with
    | .error (_, length) => '\ufffd' :: decodeLossy (rest.drop (length - 1))
    | .ok (c, more) => c :: decodeLossy (rest.drop more)
termination_by bytes => bytes.length

/-- The bytes of characters. -/
def encode (chars : List Char) : List UInt8 := chars.flatMap String.utf8EncodeChar

/-- A byte in hexadecimal. -/
def hexByte (b : UInt8) : Text :=
  let digits := Nat.toDigits 16 b.toNat
  Text.ofChars (List.replicate (2 - digits.length) '0' ++ digits)

/-- What is reported about bytes that break the encoding. -/
def DecodeError.message (e : DecodeError) : Text :=
  let subject :=
    if e.length = 1 then
      "byte 0x" ++ hexByte e.first ++ " in position " ++ Text.ofNat e.position
    else
      "bytes in position " ++ Text.ofNat e.position ++ "-" ++
        Text.ofNat (e.position + e.length - 1)
  "'utf-8' codec can't decode " ++ subject ++ ": " ++ e.fault.message

end ElementWrapper.Utf8
