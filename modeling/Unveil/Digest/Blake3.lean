namespace Unveil.Blake3

/-- Eight words that stand for everything hashed below a node. -/
abbrev Chaining := Vector UInt32 8

/-- Sixteen words: a block of a message, or the state of the compression. -/
abbrev Block := Vector UInt32 16

def initial : Chaining :=
  #v[0x6A09E667, 0xBB67AE85, 0x3C6EF372, 0xA54FF53A, 0x510E527F, 0x9B05688C, 0x1F83D9AB, 0x5BE0CD19]

def chunkStart : UInt32 := 1
def chunkEnd : UInt32 := 2
def parent : UInt32 := 4
def root : UInt32 := 8

def rotate (w : UInt32) (n : UInt32) : UInt32 := (w >>> n) ||| (w <<< (32 - n))

/-- Mixes two words of the message into four words of the state. -/
def mix (s : Block) (a b c d : Fin 16) (x y : UInt32) : Block :=
  let va := s[a] + s[b] + x
  let vd := rotate (s[d] ^^^ va) 16
  let vc := s[c] + vd
  let vb := rotate (s[b] ^^^ vc) 12
  let va := va + vb + y
  let vd := rotate (vd ^^^ va) 8
  let vc := vc + vd
  let vb := rotate (vb ^^^ vc) 7
  (((s.set a va).set b vb).set c vc).set d vd

/-- Mixes the columns of the state and then its diagonals. -/
def round (s m : Block) : Block :=
  let s := mix s 0 4 8 12 m[0] m[1]
  let s := mix s 1 5 9 13 m[2] m[3]
  let s := mix s 2 6 10 14 m[4] m[5]
  let s := mix s 3 7 11 15 m[6] m[7]
  let s := mix s 0 5 10 15 m[8] m[9]
  let s := mix s 1 6 11 12 m[10] m[11]
  let s := mix s 2 7 8 13 m[12] m[13]
  mix s 3 4 9 14 m[14] m[15]

/-- The order in which the next round takes the words of the message. -/
def permute (m : Block) : Block :=
  #v[m[2], m[6], m[3], m[10], m[7], m[0], m[4], m[13],
    m[1], m[11], m[12], m[5], m[9], m[14], m[15], m[8]]

/-- `count` rounds, the words of the message permuted between them. -/
def rounds : Nat → Block → Block → Block
  | 0, s, _ => s
  | count + 1, s, m => rounds count (round s m) (permute m)

/-- A node of the tree before its last compression. -/
structure Pending where
  chaining : Chaining
  block : Block
  counter : UInt64
  size : UInt32
  flags : UInt32

def Pending.value (p : Pending) (extra : UInt32) : Chaining :=
  let h := p.chaining
  let s := rounds 7
    #v[h[0], h[1], h[2], h[3], h[4], h[5], h[6], h[7], initial[0], initial[1], initial[2], initial[3],
      p.counter.toUInt32, (p.counter >>> 32).toUInt32, p.size, p.flags ||| extra]
    p.block
  #v[s[0] ^^^ s[8], s[1] ^^^ s[9], s[2] ^^^ s[10], s[3] ^^^ s[11],
    s[4] ^^^ s[12], s[5] ^^^ s[13], s[6] ^^^ s[14], s[7] ^^^ s[15]]

/-- Pieces of `size` bytes; the last may be shorter, and there is always one. -/
def cut (size : Nat) (bytes : List UInt8) : List (List UInt8) :=
  if size = 0 ∨ bytes.length ≤ size then [bytes]
  else bytes.take size :: cut size (bytes.drop size)
termination_by bytes.length
decreasing_by simp only [List.length_drop]; omega

/-- Four bytes, the lowest first. -/
def word (bytes : Array UInt8) (i : Nat) : UInt32 :=
  let byte (k : Nat) : UInt32 := (bytes.getD (4 * i + k) 0).toUInt32
  byte 0 ||| (byte 1 <<< 8) ||| (byte 2 <<< 16) ||| (byte 3 <<< 24)

/-- A block of at most 64 bytes, filled with zeros. -/
def blockOf (bytes : List UInt8) : Block :=
  let bytes := bytes.toArray
  Vector.ofFn fun i : Fin 16 => word bytes i

/-- The blocks of a chunk after a chaining value; the last one is left pending. -/
def chunkFrom (counter : UInt64) (start : UInt32) (c : Chaining) : List (List UInt8) → Pending
  | [] => ⟨c, blockOf [], counter, 0, start ||| chunkEnd⟩
  | [last] => ⟨c, blockOf last, counter, last.length.toUInt32, start ||| chunkEnd⟩
  | block :: rest =>
    chunkFrom counter 0 (Pending.value ⟨c, blockOf block, counter, block.length.toUInt32, start⟩ 0) rest

/-- A chunk of at most 1024 bytes at its place in the message. -/
def chunk (counter : UInt64) (bytes : List UInt8) : Pending :=
  chunkFrom counter chunkStart initial (cut 64 bytes)

def join (l r : Chaining) : Pending :=
  ⟨initial, #v[l[0], l[1], l[2], l[3], l[4], l[5], l[6], l[7],
    r[0], r[1], r[2], r[3], r[4], r[5], r[6], r[7]], 0, 64, parent⟩

/-- One level of the tree: neighbours are joined, an odd one at the end is kept. -/
def level : List Chaining → List Chaining
  | l :: r :: rest => (join l r).value 0 :: level rest
  | nodes => nodes

/-- A level has at most half as many nodes as the one below it, rounded up. -/
theorem length_level_le (nodes : List Chaining) : 2 * (level nodes).length ≤ nodes.length + 1 := by
  fun_induction level nodes with
  | case1 l r rest ih => simp only [List.length_cons]; omega
  | case2 nodes h =>
    match nodes with
    | [] => simp
    | [_] => simp
    | l :: r :: rest => exact absurd rfl (h l r rest)

/-- The topmost node over at least two leaves. -/
def top (l r : Chaining) : List Chaining → Pending
  | [] => join l r
  | x :: rest =>
    match _atLevel : level (l :: r :: x :: rest) with
    | l' :: r' :: rest' => top l' r' rest'
    | _ => join l r
termination_by nodes => nodes.length
decreasing_by
  have := length_level_le (l :: r :: x :: rest)
  rw [_atLevel] at this
  simp only [List.length_cons] at this ⊢
  omega

def leaves (counter : UInt64) : List (List UInt8) → List Chaining
  | [] => []
  | bytes :: rest => (chunk counter bytes).value 0 :: leaves (counter + 1) rest

/-- The hash function BLAKE3 in its unkeyed mode. A message is cut into chunks of 1024 bytes and these into
blocks of 64; the values of the chunks are the leaves of a binary tree. -/
def hash (bytes : List UInt8) : Chaining :=
  match cut 1024 bytes with
  | [] => (chunk 0 []).value root
  | [only] => (chunk 0 only).value root
  | chunks =>
    match leaves 0 chunks with
    | l :: r :: rest => (top l r rest).value root
    | _ => (chunk 0 []).value root

/-- The first eight bytes of the hash value, the lowest first. -/
def hash64 (bytes : List UInt8) : UInt64 :=
  let h := hash bytes
  h[0].toUInt64 ||| (h[1].toUInt64 <<< 32)

end Unveil.Blake3
