import Gatehouse.Text.Hex

/-!
The BLAKE3 hash with 256 bits.

The input is cut into chunks of 1024 bytes and these into blocks of 64. Every chunk is compressed
block by block into a node, neighbouring nodes are joined into parents level by level, a node
without a neighbour going up as it is, and the one node left over at last is compressed once more,
marked as the root, for the digest.
-/

namespace Gatehouse.Blake3

/-- The chaining value that every chunk starts from. -/
def start : Vector UInt32 8 :=
  #v[0x6A09E667, 0xBB67AE85, 0x3C6EF372, 0xA54FF53A, 0x510E527F, 0x9B05688C, 0x1F83D9AB, 0x5BE0CD19]

/-- The words of a message as the next round takes them. -/
def shuffle (m : Vector UInt32 16) : Vector UInt32 16 :=
  #v[m[2], m[6], m[3], m[10], m[7], m[0], m[4], m[13],
    m[1], m[11], m[12], m[5], m[9], m[14], m[15], m[8]]

/-- A block is the first of its chunk. -/
def chunkStart : UInt32 := 1

/-- A block is the last of its chunk. -/
def chunkEnd : UInt32 := 2

/-- A node joins two nodes. -/
def parent : UInt32 := 4

/-- A node is the last one of the tree. -/
def root : UInt32 := 8

/-- The bits of a word moved to the right by `n`, in a circle. -/
def rotate (x n : UInt32) : UInt32 := (x >>> n) ||| (x <<< (32 - n))

/-- Stirs four words of the state together with two words of the message. -/
def mix (v : Vector UInt32 16) (a b c d : Nat) (x y : UInt32) (ha : a < 16 := by decide)
    (hb : b < 16 := by decide) (hc : c < 16 := by decide) (hd : d < 16 := by decide) :
    Vector UInt32 16 :=
  let v := v.set a (v[a] + v[b] + x)
  let v := v.set d (rotate (v[d] ^^^ v[a]) 16)
  let v := v.set c (v[c] + v[d])
  let v := v.set b (rotate (v[b] ^^^ v[c]) 12)
  let v := v.set a (v[a] + v[b] + y)
  let v := v.set d (rotate (v[d] ^^^ v[a]) 8)
  let v := v.set c (v[c] + v[d])
  v.set b (rotate (v[b] ^^^ v[c]) 7)

/-- The four columns of the state, then its four diagonals. -/
def round (v m : Vector UInt32 16) : Vector UInt32 16 :=
  let v := mix v 0 4 8 12 m[0] m[1]
  let v := mix v 1 5 9 13 m[2] m[3]
  let v := mix v 2 6 10 14 m[4] m[5]
  let v := mix v 3 7 11 15 m[6] m[7]
  let v := mix v 0 5 10 15 m[8] m[9]
  let v := mix v 1 6 11 12 m[10] m[11]
  let v := mix v 2 7 8 13 m[12] m[13]
  mix v 3 4 9 14 m[14] m[15]

/-- Rounds with the message shuffled between them. -/
def rounds : Nat → Vector UInt32 16 → Vector UInt32 16 → Vector UInt32 16
  | 0, v, _ => v
  | n + 1, v, m => rounds n (round v m) (shuffle m)

/-- What is compressed last for a chunk or a parent. -/
structure Node where
  chain : Vector UInt32 8
  block : Vector UInt32 16
  /-- The number of the chunk; zero for parents. -/
  counter : UInt64
  /-- The number of bytes in the block. -/
  size : UInt32
  flags : UInt32

/-- The compression of a node, marked with further flags. -/
def Node.compress (n : Node) (more : UInt32) : Vector UInt32 8 :=
  let v : Vector UInt32 16 :=
    #v[n.chain[0], n.chain[1], n.chain[2], n.chain[3], n.chain[4], n.chain[5], n.chain[6],
      n.chain[7], start[0], start[1], start[2], start[3], n.counter.toUInt32,
      (n.counter >>> 32).toUInt32, n.size, n.flags ||| more]
  let v := rounds 7 v n.block
  Vector.ofFn fun i : Fin 8 => v[i.val] ^^^ v[i.val + 8]

/-- Cuts a list into pieces of `n`, the last of which may be shorter. `fuel` bounds their number. -/
def cut {α : Type} (n : Nat) : Nat → List α → List (List α)
  | 0, _ | _, [] => []
  | fuel + 1, xs => xs.take n :: cut n fuel (xs.drop n)

/-- The little-endian word that a list of bytes starts with; bytes it lacks are zero. -/
def word : List UInt8 → UInt32
  | a :: b :: c :: d :: _ =>
    a.toUInt32 ||| (b.toUInt32 <<< 8) ||| (c.toUInt32 <<< 16) ||| (d.toUInt32 <<< 24)
  | [a, b, c] => a.toUInt32 ||| (b.toUInt32 <<< 8) ||| (c.toUInt32 <<< 16)
  | [a, b] => a.toUInt32 ||| (b.toUInt32 <<< 8)
  | [a] => a.toUInt32
  | [] => 0

/-- The words of a block. -/
def words (bytes : List UInt8) : Vector UInt32 16 :=
  Vector.ofFn fun i : Fin 16 => word (bytes.drop (4 * i.val))

/-- The node of the blocks of a chunk, from the chaining value before them on. -/
def chunkNode (counter : UInt64) (chain : Vector UInt32 8) (flags : UInt32) :
    List (List UInt8) → Node
  | [] => ⟨chain, words [], counter, 0, flags ||| chunkEnd⟩
  | [block] => ⟨chain, words block, counter, UInt32.ofNat block.length, flags ||| chunkEnd⟩
  | block :: rest =>
    let node : Node := ⟨chain, words block, counter, UInt32.ofNat block.length, flags⟩
    chunkNode counter (node.compress 0) 0 rest

/-- The parent of two nodes. -/
def join (left right : Node) : Node :=
  ⟨start, (left.compress 0 ++ right.compress 0).cast rfl, 0, 64, parent⟩

/-- Joins neighbours; a last node without one stays as it is. -/
def level : List Node → List Node
  | left :: right :: rest => join left right :: level rest
  | nodes => nodes

/-- Joins levels, at most `fuel` of them. -/
def tree : Nat → List Node → List Node
  | _, [] => []
  | _, [node] => [node]
  | 0, nodes => nodes
  | fuel + 1, nodes => tree fuel (level nodes)

/-- The nodes of the chunks of an input; the empty input has one empty chunk. -/
def chunkNodes (bytes : List UInt8) : List Node :=
  let chunks := if bytes.isEmpty then [[]] else cut 1024 bytes.length bytes
  chunks.zipIdx.map fun (chunk, i) =>
    chunkNode (UInt64.ofNat i) start chunkStart (cut 64 chunk.length chunk)

/-- The bytes of a word, the low one first. -/
def wordBytes (w : UInt32) : List UInt8 :=
  [w.toUInt8, (w >>> 8).toUInt8, (w >>> 16).toUInt8, (w >>> 24).toUInt8]

/-- The 32 bytes of the digest. -/
def digest (bytes : List UInt8) : List UInt8 :=
  let nodes := chunkNodes bytes
  (tree nodes.length nodes).flatMap fun node => (node.compress root).toList.flatMap wordBytes

/-- The digest of the UTF-8 bytes of a text, in hexadecimal digits. -/
def hexDigest (s : String) : String :=
  String.ofList ((digest s.toUTF8.data.toList).flatMap Text.hexByte)

end Gatehouse.Blake3
