import HostProfile.Text.Hex

/-!
# Digests

The BLAKE3 hash of a sequence of bytes, with the default length of 32 bytes and no key. The bytes
are cut into chunks of 1024, the chunks into blocks of 64, and the blocks of a chunk are
compressed one after another. The chaining values of the chunks are then joined pairwise in a
binary tree whose left branches are complete.
-/

namespace HostProfile.Digest

/-- The eight words that one compression hands to the next. -/
abbrev Chaining : Type := Vector UInt32 8

/-- The sixteen words of a block, or the state of a compression. -/
abbrev Block : Type := Vector UInt32 16

/-- The first chaining value of every chunk and parent. -/
def initial : Chaining :=
  #v[0x6A09E667, 0xBB67AE85, 0x3C6EF372, 0xA54FF53A, 0x510E527F, 0x9B05688C, 0x1F83D9AB, 0x5BE0CD19]

/-- Where the words of the next round are taken from. -/
def permutation : Vector (Fin 16) 16 := #v[2, 6, 3, 10, 7, 0, 4, 13, 1, 11, 12, 5, 9, 14, 15, 8]

/-- Marks the first block of a chunk. -/
def chunkStart : UInt32 := 1

/-- Marks the last block of a chunk. -/
def chunkEnd : UInt32 := 2

/-- Marks a block of two chaining values. -/
def parent : UInt32 := 4

/-- Marks the last compression of all. -/
def root : UInt32 := 8

/-- Rotates a word to the right. -/
def rotateRight (x n : UInt32) : UInt32 := (x >>> n) ||| (x <<< (32 - n))

/-- Mixes two words of the message into four words of the state. -/
def mix (s : Block) (a b c d : Fin 16) (x y : UInt32) : Block :=
  let a₁ := s[a] + s[b] + x
  let d₁ := rotateRight (s[d] ^^^ a₁) 16
  let c₁ := s[c] + d₁
  let b₁ := rotateRight (s[b] ^^^ c₁) 12
  let a₂ := a₁ + b₁ + y
  let d₂ := rotateRight (d₁ ^^^ a₂) 8
  let c₂ := c₁ + d₂
  let b₂ := rotateRight (b₁ ^^^ c₂) 7
  (((s.set a a₂).set b b₂).set c c₂).set d d₂

/-- One round: the columns of the state and then its diagonals. -/
def round (s m : Block) : Block :=
  let s := mix s 0 4 8 12 m[0] m[1]
  let s := mix s 1 5 9 13 m[2] m[3]
  let s := mix s 2 6 10 14 m[4] m[5]
  let s := mix s 3 7 11 15 m[6] m[7]
  let s := mix s 0 5 10 15 m[8] m[9]
  let s := mix s 1 6 11 12 m[10] m[11]
  let s := mix s 2 7 8 13 m[12] m[13]
  mix s 3 4 9 14 m[14] m[15]

/-- Seven rounds; the words of the message are permuted between them. -/
def rounds : Nat → Block → Block → Block
  | 0, s, _ => s
  | n + 1, s, m => rounds n (round s m) (permutation.map (m[·]))

/-- The chaining value behind a block of `length` bytes. -/
def compress (cv : Chaining) (m : Block) (counter : UInt64) (length flags : UInt32) : Chaining :=
  let start : Block := #v[
    cv[0], cv[1], cv[2], cv[3], cv[4], cv[5], cv[6], cv[7],
    initial[0], initial[1], initial[2], initial[3],
    counter.toUInt32, (counter >>> 32).toUInt32, length, flags]
  let s := rounds 7 start m
  Vector.ofFn fun i : Fin 8 => s[i.val] ^^^ s[i.val + 8]

/-- The words of the 64 bytes from `start` on; behind the end there are zeros. -/
def wordsAt (bytes : ByteArray) (start stop : Nat) : Block :=
  let byte (i : Nat) : UInt32 := if i < stop then (bytes[i]?.getD 0).toUInt32 else 0
  Vector.ofFn fun i : Fin 16 =>
    let first := start + 4 * i.val
    byte first ||| (byte (first + 1) <<< 8) ||| (byte (first + 2) <<< 16) |||
      (byte (first + 3) <<< 24)

/-- Compresses the blocks of a chunk from byte `start` on. `flags` marks the first block to come,
and `last` the last. -/
def blocks (bytes : ByteArray) (counter : UInt64) (stop : Nat) (last : UInt32) (start : Nat)
    (flags : UInt32) (cv : Chaining) : Chaining :=
  if stop ≤ start + 64 then
    compress cv (wordsAt bytes start stop) counter (UInt32.ofNat (stop - start))
      (flags ||| chunkEnd ||| last)
  else
    blocks bytes counter stop last (start + 64) 0
      (compress cv (wordsAt bytes start stop) counter 64 flags)
termination_by stop - start

/-- The chaining value of a chunk. -/
def chunk (bytes : ByteArray) (index : Nat) (last : UInt32) : Chaining :=
  blocks bytes (UInt64.ofNat index) (min bytes.size (1024 * (index + 1))) last (1024 * index)
    chunkStart initial

/-- The chaining value of `count` chunks from `first` on. The left branch holds the largest power
of two of chunks that leaves some for the right. -/
def subtree (bytes : ByteArray) (first count : Nat) (last : UInt32) : Chaining :=
  if h : count ≤ 1 then chunk bytes first last
  else
    let left := Nat.pow 2 (count - 1).log2
    have small : left < count :=
      Nat.lt_of_le_of_lt (Nat.log2_self_le (by omega)) (by omega)
    have positive : 0 < left := Nat.two_pow_pos _
    let l := subtree bytes first left 0
    let r := subtree bytes (first + left) (count - left) 0
    compress initial (l ++ r) 0 64 (parent ||| last)
termination_by count
decreasing_by
  · exact small
  · exact Nat.sub_lt (by omega) positive

/-- The hash of the bytes. -/
def hash (bytes : ByteArray) : Chaining := subtree bytes 0 ((bytes.size + 1023) / 1024) root

/-- The words as bytes in hexadecimal digits, the low byte of a word first. -/
def toHex (words : Chaining) : String :=
  String.ofList (words.toList.flatMap fun w =>
    (List.range 4).flatMap fun i => Text.paddedHex 2 ((w.toNat >>> (8 * i)) % 256))

/-- The hash of the text's UTF-8 form in hexadecimal digits. -/
def ofText (text : String) : String := toHex (hash text.toUTF8)

end HostProfile.Digest
