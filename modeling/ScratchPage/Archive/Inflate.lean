import ScratchPage.Archive.Bits

/-!
# Compressed entries

Compressed data is a sequence of blocks. A block is stored as it is, or it is a sequence of symbols under
prefix codes: a symbol is a byte, the end of the block, or the length of a repetition, which is followed
by a distance back. Every symbol takes at least one bit, so the number of bits bounds all loops.
-/

namespace ScratchPage.Inflate
set_option autoImplicit false

open BitReader

/-- A prefix code in its canonical form: how many symbols there are of each length from one on, and the
symbols by length and value. -/
structure PrefixCode where
  counts : List Nat
  symbols : Array Nat

/-- The longest prefix in bits. -/
def longest : Nat := 15

/-- The code that gives each symbol a prefix of the listed length; symbols of length zero are unused. -/
def PrefixCode.ofLengths (lengths : List Nat) : PrefixCode :=
  let ofLength (n : Nat) := (lengths.zipIdx.filter fun p => p.1 == n).map (·.2)
  let groups := (List.range longest).map fun n => ofLength (n + 1)
  ⟨groups.map List.length, groups.flatten.toArray⟩

/-- Reads a symbol by way of the counts that are left. -/
def symbolAmong (data : ByteArray) (symbols : Array Nat) (code first index : Nat) : List Nat → BitReader Nat
  | [] => failure
  | count :: rest => do
    let code := 2 * code + (← bit data)
    let first := 2 * first
    if code < first + count then
      match symbols[index + (code - first)]? with
      | some symbol => return symbol
      | none => failure
    else symbolAmong data symbols code (first + count) (index + count) rest

/-- Reads a symbol. -/
def PrefixCode.symbol (code : PrefixCode) (data : ByteArray) : BitReader Nat :=
  symbolAmong data code.symbols 0 0 0 code.counts

/-- The least length of each length symbol, with the number of bits that follow. -/
def lengthTable : List (Nat × Nat) := [
  (3, 0), (4, 0), (5, 0), (6, 0), (7, 0), (8, 0), (9, 0), (10, 0), (11, 1), (13, 1), (15, 1), (17, 1),
  (19, 2), (23, 2), (27, 2), (31, 2), (35, 3), (43, 3), (51, 3), (59, 3), (67, 4), (83, 4), (99, 4),
  (115, 4), (131, 5), (163, 5), (195, 5), (227, 5), (258, 0)]

/-- The least distance of each distance symbol, with the number of bits that follow. -/
def distanceTable : List (Nat × Nat) := [
  (1, 0), (2, 0), (3, 0), (4, 0), (5, 1), (7, 1), (9, 2), (13, 2), (17, 3), (25, 3), (33, 4), (49, 4),
  (65, 5), (97, 5), (129, 6), (193, 6), (257, 7), (385, 7), (513, 8), (769, 8), (1025, 9), (1537, 9),
  (2049, 10), (3073, 10), (4097, 11), (6145, 11), (8193, 12), (12289, 12), (16385, 13), (24577, 13)]

/-- Reads the bits that follow an entry of a table. -/
def extended (data : ByteArray) (table : List (Nat × Nat)) (symbol : Nat) : BitReader Nat :=
  match table[symbol]? with
  | some (least, width) => return least + (← bits data width)
  | none => failure

/-- Repeats bytes from a distance back. -/
def repeatBack (out : ByteArray) (distance : Nat) : Nat → BitReader ByteArray
  | 0 => return out
  | count + 1 =>
    if distance ≤ out.size then
      match out[out.size - distance]? with
      | some byte => repeatBack (out.push byte) distance count
      | none => failure
    else failure

/-- Reads the symbols of a block up to its end. -/
def symbols (data : ByteArray) (literals distances : PrefixCode) : Nat → ByteArray → BitReader ByteArray
  | 0, _ => failure
  | fuel + 1, out => do
    let symbol ← literals.symbol data
    if symbol < 256 then symbols data literals distances fuel (out.push (UInt8.ofNat symbol))
    else if symbol = 256 then return out
    else
      let count ← extended data lengthTable (symbol - 257)
      let distance ← extended data distanceTable (← distances.symbol data)
      let out ← repeatBack out distance count
      symbols data literals distances fuel out

/-- Copies whole bytes. -/
def copyBytes (data : ByteArray) (out : ByteArray) : Nat → BitReader ByteArray
  | 0 => return out
  | count + 1 => do
    let byte ← bits data 8
    copyBytes data (out.push (UInt8.ofNat byte)) count

/-- Reads a stored block, whose length is given twice, the second time with all bits inverted. -/
def stored (data out : ByteArray) : BitReader ByteArray := do
  align
  let length ← bits data 16
  let check ← bits data 16
  if length + check = 0xffff then copyBytes data out length else failure

/-- The code that is used when a block brings none. -/
def fixedLiterals : PrefixCode :=
  .ofLengths (List.replicate 144 8 ++ List.replicate 112 9 ++ List.replicate 24 7 ++ List.replicate 8 8)

def fixedDistances : PrefixCode := .ofLengths (List.replicate 30 5)

/-- The order in which the lengths for the code of lengths are given. -/
def lengthOrder : List Nat := [16, 17, 18, 0, 8, 7, 9, 6, 10, 5, 11, 4, 12, 3, 13, 2, 14, 1, 15]

/-- Reads the code of lengths. -/
def lengthCode (data : ByteArray) (count : Nat) : BitReader PrefixCode := do
  let given ← (lengthOrder.take count).mapM fun symbol => do return (symbol, ← bits data 3)
  return .ofLengths ((List.range 19).map fun symbol => (given.lookup symbol).getD 0)

/-- Reads lengths until there are enough of them; repetitions are written as one symbol. -/
def lengths (data : ByteArray) (code : PrefixCode) (wanted : Nat) : Nat → List Nat → BitReader (List Nat)
  | 0, _ => failure
  | fuel + 1, sofar =>
    if sofar.length = wanted then return sofar.reverse
    else if wanted < sofar.length then failure
    else do
      let symbol ← code.symbol data
      if symbol < 16 then lengths data code wanted fuel (symbol :: sofar)
      else if symbol = 16 then
        match sofar with
        | [] => failure
        | last :: _ => lengths data code wanted fuel (List.replicate (3 + (← bits data 2)) last ++ sofar)
      else if symbol = 17 then
        lengths data code wanted fuel (List.replicate (3 + (← bits data 3)) 0 ++ sofar)
      else lengths data code wanted fuel (List.replicate (11 + (← bits data 7)) 0 ++ sofar)

/-- Reads the codes that a block brings. -/
def ownCodes (data : ByteArray) : BitReader (PrefixCode × PrefixCode) := do
  let literalCount := 257 + (← bits data 5)
  let distanceCount := 1 + (← bits data 5)
  let code ← lengthCode data (4 + (← bits data 4))
  let all ← lengths data code (literalCount + distanceCount) (literalCount + distanceCount + 1) []
  return (.ofLengths (all.take literalCount), .ofLengths (all.drop literalCount))

/-- Reads a block of a given kind. -/
def block (data : ByteArray) (kind : Nat) (out : ByteArray) : BitReader ByteArray :=
  match kind with
  | 0 => stored data out
  | 1 => symbols data fixedLiterals fixedDistances (8 * data.size + 1) out
  | 2 => do
    let (literals, distances) ← ownCodes data
    symbols data literals distances (8 * data.size + 1) out
  | _ => failure

/-- Reads blocks up to the one that is marked as the last. -/
def blocks (data : ByteArray) : Nat → ByteArray → BitReader ByteArray
  | 0, _ => failure
  | fuel + 1, out => do
    let last ← bit data
    let kind ← bits data 2
    let out ← block data kind out
    if last = 1 then return out else blocks data fuel out

/-- The bytes behind compressed data. -/
def inflate? (data : ByteArray) : Option ByteArray :=
  ((blocks data (8 * data.size + 1) ByteArray.empty).run 0).map (·.1)

end ScratchPage.Inflate
