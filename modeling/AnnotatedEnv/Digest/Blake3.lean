/-
Module: AnnotatedEnv.Digest.Blake3
Purpose: The BLAKE3 hash of a list of bytes, thirty-two bytes long.
Main exports: Blake3.hash, Blake3.length_hash
The message is cut into chunks of 1024 bytes and these into blocks of 64 bytes. The chaining
values of the chunks are joined in pairs, level by level, until two or fewer are left; a value
without a partner moves up unchanged, which gives the left-balanced tree of the definition.
-/

namespace AnnotatedEnv.Blake3

/-! ### Words -/

/-- Eight words: a chaining value. -/
structure Words8 where
  (w0 w1 w2 w3 w4 w5 w6 w7 : UInt32)
  deriving DecidableEq, Repr

/-- Sixteen words: a block of the message or the state of the compression. -/
structure Words16 where
  (w0 w1 w2 w3 w4 w5 w6 w7 w8 w9 w10 w11 w12 w13 w14 w15 : UInt32)
  deriving DecidableEq, Repr

def initial : Words8 :=
  ⟨0x6A09E667, 0xBB67AE85, 0x3C6EF372, 0xA54FF53A, 0x510E527F, 0x9B05688C, 0x1F83D9AB, 0x5BE0CD19⟩

@[inline]
def rotateRight (x n : UInt32) : UInt32 := (x >>> n) ||| (x <<< (32 - n))

/-! ### Compression -/

/-- Four words of the state. -/
structure Quarter where
  (a b c d : UInt32)

/-- Mix two message words into four words of the state. -/
@[inline]
def mix (q : Quarter) (x y : UInt32) : Quarter :=
  let a := q.a + q.b + x
  let d := rotateRight (q.d ^^^ a) 16
  let c := q.c + d
  let b := rotateRight (q.b ^^^ c) 12
  let a := a + b + y
  let d := rotateRight (d ^^^ a) 8
  let c := c + d
  let b := rotateRight (b ^^^ c) 7
  ⟨a, b, c, d⟩

/-- One round: the columns of the state, then its diagonals. -/
def round (s m : Words16) : Words16 :=
  let p := mix ⟨s.w0, s.w4, s.w8, s.w12⟩ m.w0 m.w1
  let q := mix ⟨s.w1, s.w5, s.w9, s.w13⟩ m.w2 m.w3
  let r := mix ⟨s.w2, s.w6, s.w10, s.w14⟩ m.w4 m.w5
  let t := mix ⟨s.w3, s.w7, s.w11, s.w15⟩ m.w6 m.w7
  let e := mix ⟨p.a, q.b, r.c, t.d⟩ m.w8 m.w9
  let f := mix ⟨q.a, r.b, t.c, p.d⟩ m.w10 m.w11
  let g := mix ⟨r.a, t.b, p.c, q.d⟩ m.w12 m.w13
  let h := mix ⟨t.a, p.b, q.c, r.d⟩ m.w14 m.w15
  ⟨e.a, f.a, g.a, h.a, h.b, e.b, f.b, g.b, g.c, h.c, e.c, f.c, f.d, g.d, h.d, e.d⟩

/-- The order in which the next round takes the message words. -/
def permute (m : Words16) : Words16 :=
  ⟨m.w2, m.w6, m.w3, m.w10, m.w7, m.w0, m.w4, m.w13,
   m.w1, m.w11, m.w12, m.w5, m.w9, m.w14, m.w15, m.w8⟩

/-- `n` rounds, the message permuted between them. -/
def rounds : (n : Nat) → (s m : Words16) → Words16
  | 0, s, _ => s
  | n + 1, s, m => rounds n (round s m) (permute m)

/-- Compress a block into a chaining value. `count` is the number of the chunk, `size` the number
of message bytes in the block. -/
def compress (cv : Words8) (block : Words16) (count : UInt64) (size flags : UInt32) : Words8 :=
  let s := rounds 7
    ⟨cv.w0, cv.w1, cv.w2, cv.w3, cv.w4, cv.w5, cv.w6, cv.w7,
     initial.w0, initial.w1, initial.w2, initial.w3,
     count.toUInt32, (count >>> 32).toUInt32, size, flags⟩ block
  ⟨s.w0 ^^^ s.w8, s.w1 ^^^ s.w9, s.w2 ^^^ s.w10, s.w3 ^^^ s.w11,
   s.w4 ^^^ s.w12, s.w5 ^^^ s.w13, s.w6 ^^^ s.w14, s.w7 ^^^ s.w15⟩

/-! ### Flags -/

/-- Marks the first block of a chunk. -/
def chunkStart : UInt32 := 1

/-- Marks the last block of a chunk. -/
def chunkEnd : UInt32 := 2

/-- Marks a block that joins two chaining values. -/
def parent : UInt32 := 4

/-- Marks the block whose output is the hash. -/
def root : UInt32 := 8

/-! ### Bytes and words -/

/-- The word of four bytes, the lowest first; absent bytes are zero. -/
def wordAt (bytes : List UInt8) : UInt32 :=
  match bytes with
  | [] => 0
  | [a] => a.toUInt32
  | [a, b] => a.toUInt32 ||| (b.toUInt32 <<< 8)
  | [a, b, c] => a.toUInt32 ||| (b.toUInt32 <<< 8) ||| (c.toUInt32 <<< 16)
  | a :: b :: c :: d :: _ =>
    a.toUInt32 ||| (b.toUInt32 <<< 8) ||| (c.toUInt32 <<< 16) ||| (d.toUInt32 <<< 24)

/-- The block that up to sixty-four bytes fill, padded with zeros. -/
def blockOf (b0 : List UInt8) : Words16 :=
  let b1 := b0.drop 4
  let b2 := b1.drop 4
  let b3 := b2.drop 4
  let b4 := b3.drop 4
  let b5 := b4.drop 4
  let b6 := b5.drop 4
  let b7 := b6.drop 4
  let b8 := b7.drop 4
  let b9 := b8.drop 4
  let b10 := b9.drop 4
  let b11 := b10.drop 4
  let b12 := b11.drop 4
  let b13 := b12.drop 4
  let b14 := b13.drop 4
  let b15 := b14.drop 4
  ⟨wordAt b0, wordAt b1, wordAt b2, wordAt b3, wordAt b4, wordAt b5, wordAt b6, wordAt b7,
   wordAt b8, wordAt b9, wordAt b10, wordAt b11, wordAt b12, wordAt b13, wordAt b14, wordAt b15⟩

/-- The four bytes of a word, the lowest first. -/
def bytesOfWord (w : UInt32) : List UInt8 :=
  [w.toUInt8, (w >>> 8).toUInt8, (w >>> 16).toUInt8, (w >>> 24).toUInt8]

def bytesOf (cv : Words8) : List UInt8 :=
  bytesOfWord cv.w0 ++ bytesOfWord cv.w1 ++ bytesOfWord cv.w2 ++ bytesOfWord cv.w3
    ++ bytesOfWord cv.w4 ++ bytesOfWord cv.w5 ++ bytesOfWord cv.w6 ++ bytesOfWord cv.w7

/-- Cut a list into parts of `n + 1` elements; only the last one may be shorter. -/
def partsOf {α : Type} (n : Nat) (xs : List α) : List (List α) :=
  match xs with
  | [] => []
  | x :: rest => (x :: rest.take n) :: partsOf n (rest.drop n)
termination_by xs.length
decreasing_by
  rw [List.length_drop]
  exact Nat.lt_succ_of_le (Nat.sub_le _ _)

/-! ### The tree -/

/-- Compress the blocks of one chunk. `extra` marks the last block of a message that is a single
chunk. -/
def chunkBlocks (count : UInt64) (extra : UInt32) :
    (cv : Words8) → (start : UInt32) → List (List UInt8) → Words8
  | cv, _, [] => cv
  | cv, start, [b] =>
    compress cv (blockOf b) count b.length.toUInt32 (start ||| chunkEnd ||| extra)
  | cv, start, b :: bs =>
    chunkBlocks count extra (compress cv (blockOf b) count b.length.toUInt32 start) 0 bs

/-- The chaining value of one chunk; the empty message is one empty block. -/
def chunk (count : UInt64) (extra : UInt32) (bytes : List UInt8) : Words8 :=
  match partsOf 63 bytes with
  | [] => chunkBlocks count extra initial chunkStart [[]]
  | blocks => chunkBlocks count extra initial chunkStart blocks

def join (extra : UInt32) (l r : Words8) : Words8 :=
  compress initial
    ⟨l.w0, l.w1, l.w2, l.w3, l.w4, l.w5, l.w6, l.w7, r.w0, r.w1, r.w2, r.w3, r.w4, r.w5, r.w6, r.w7⟩
    0 64 (parent ||| extra)

/-- Join neighbours; a last value without a partner stays as it is. -/
def joinPairs : List Words8 → List Words8
  | l :: r :: cvs => join 0 l r :: joinPairs cvs
  | cvs => cvs

theorem length_joinPairs_le : (cvs : List Words8) → (joinPairs cvs).length ≤ cvs.length
  | [] => by simp [joinPairs]
  | [_] => by simp [joinPairs]
  | _ :: _ :: cvs => by
    have := length_joinPairs_le cvs
    simp only [joinPairs, List.length_cons]
    omega

/-- Join level by level; the last join makes the root. -/
def tree : List Words8 → Words8
  | [] => initial
  | [cv] => cv
  | [l, r] => join root l r
  | l :: r :: c :: cvs => tree (join 0 l r :: joinPairs (c :: cvs))
termination_by cvs => cvs.length
decreasing_by
  have := length_joinPairs_le (c :: cvs)
  simp only [List.length_cons] at this ⊢
  omega

/-- The chaining values of the chunks from number `i` on. -/
def chunksFrom : (i : Nat) → List (List UInt8) → List Words8
  | _, [] => []
  | i, c :: cs => chunk i.toUInt64 0 c :: chunksFrom (i + 1) cs

def hash (message : List UInt8) : List UInt8 :=
  match partsOf 1023 message with
  | [] => bytesOf (chunk 0 root [])
  | [c] => bytesOf (chunk 0 root c)
  | cs => bytesOf (tree (chunksFrom 0 cs))

/-! ### Size -/

/-- A chaining value is written in thirty-two bytes. -/
theorem length_bytesOf (cv : Words8) : (bytesOf cv).length = 32 := rfl

/-- Every hash has thirty-two bytes. -/
theorem length_hash (message : List UInt8) : (hash message).length = 32 := by
  unfold hash
  split <;> exact length_bytesOf _

end AnnotatedEnv.Blake3
