namespace ViewWiring.Utf8

/-- A character that has begun: how many bytes it still lacks, the bounds of the next one, and the
bits so far. -/
structure Pending where
  missing : Nat
  least : Nat
  greatest : Nat
  bits : Nat

/-- Stands for bytes that are no character. -/
def replacement : Char := '\uFFFD'

/-- What a byte begins: a whole character, a longer one, or none. -/
def start (byte : Nat) : List Char × Option Pending :=
  if byte < 0x80 then ([Char.ofNat byte], none)
  else if 0xc2 ≤ byte ∧ byte ≤ 0xdf then ([], some ⟨1, 0x80, 0xbf, byte - 0xc0⟩)
  else if byte = 0xe0 then ([], some ⟨2, 0xa0, 0xbf, 0⟩)
  else if byte = 0xed then ([], some ⟨2, 0x80, 0x9f, 0xd⟩)
  else if 0xe1 ≤ byte ∧ byte ≤ 0xef then ([], some ⟨2, 0x80, 0xbf, byte - 0xe0⟩)
  else if byte = 0xf0 then ([], some ⟨3, 0x90, 0xbf, 0⟩)
  else if 0xf1 ≤ byte ∧ byte ≤ 0xf3 then ([], some ⟨3, 0x80, 0xbf, byte - 0xf0⟩)
  else if byte = 0xf4 then ([], some ⟨3, 0x80, 0x8f, 4⟩)
  else ([replacement], none)

def step (byte : Nat) : Option Pending → List Char × Option Pending
  | none => start byte
  | some p =>
    if p.least ≤ byte ∧ byte ≤ p.greatest then
      let bits := 64 * p.bits + (byte - 0x80)
      if p.missing = 1 then ([Char.ofNat bits], none)
      else ([], some ⟨p.missing - 1, 0x80, 0xbf, bits⟩)
    else
      let (cs, next) := start byte
      (replacement :: cs, next)

def decodeFrom : Option Pending → List UInt8 → List Char
  | none, [] => []
  | some _, [] => [replacement]
  | p, byte :: bytes =>
    let (cs, next) := step byte.toNat p
    cs ++ decodeFrom next bytes

/-- Decodes any bytes; each longest run that begins a character without completing it, and each
byte that begins none, is replaced. -/
def decodeLossy (bytes : List UInt8) : String := String.ofList (decodeFrom none bytes)

end ViewWiring.Utf8
