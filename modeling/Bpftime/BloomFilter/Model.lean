import Bpftime.Basic

/-!
# The Bloom filter map

`bloom_filter_map_impl` of `runtime/src/bpf_map/userspace/bloom_filter.cpp`.
-/

namespace Bpftime.BloomFilter

/-- `BloomHashAlgorithm` -/
inductive BloomHashAlgorithm where
  | DJB2
  | JHASH
deriving DecidableEq

def shifted (b : UInt8) (n : ℕ) : BitVec 32 := (b.toBitVec.setWidth 32) <<< n

def keyWord (k0 k1 k2 k3 : UInt8) : BitVec 32 := shifted k0 0 + shifted k1 8 + shifted k2 16 + shifted k3 24

def rotated (x : BitVec 32) (n : ℕ) : BitVec 32 := x <<< n ||| x >>> (32 - n)

/-- The three words that `jhash` mixes. -/
structure JhashState where
  a : BitVec 32
  b : BitVec 32
  c : BitVec 32

/-- The mixing of `jhash` after each twelve bytes. -/
def JhashState.mix : JhashState → JhashState
  | ⟨a, b, c⟩ =>
    let a := a - c
    let a := a ^^^ rotated c 4
    let c := c + b
    let b := b - a
    let b := b ^^^ rotated a 6
    let a := a + c
    let c := c - b
    let c := c ^^^ rotated b 8
    let b := b + a
    let a := a - c
    let a := a ^^^ rotated c 16
    let c := c + b
    let b := b - a
    let b := b ^^^ rotated a 19
    let a := a + c
    let c := c - b
    let c := c ^^^ rotated b 4
    let b := b + a
    ⟨a, b, c⟩

/-- The last mixing of `jhash`. -/
def JhashState.final : JhashState → BitVec 32
  | ⟨a, b, c⟩ =>
    let c := c ^^^ b
    let c := c - rotated b 14
    let a := a ^^^ c
    let a := a - rotated c 11
    let b := b ^^^ a
    let b := b - rotated a 25
    let c := c ^^^ b
    let c := c - rotated b 16
    let a := a ^^^ c
    let a := a - rotated c 4
    let b := b ^^^ a
    let b := b - rotated a 14
    let c := c ^^^ b
    let c := c - rotated b 24
    c

/-- The loop of `jhash`, while there are more than twelve bytes: the words, and the bytes left. -/
def jhashLoop (s : JhashState) : List UInt8 → JhashState × List UInt8
  | k0 :: k1 :: k2 :: k3 :: k4 :: k5 :: k6 :: k7 :: k8 :: k9 :: k10 :: k11 :: k12 :: rest =>
    let s : JhashState :=
      { a := s.a + keyWord k0 k1 k2 k3, b := s.b + keyWord k4 k5 k6 k7, c := s.c + keyWord k8 k9 k10 k11 }
    jhashLoop s.mix (k12 :: rest)
  | k => (s, k)

/-- `jhash`. -/
def jhash (key : List UInt8) (initval : BitVec 32) : BitVec 32 :=
  let start : BitVec 32 := 0xdeadbeef + BitVec.ofNat 32 key.length + initval
  let (s, k) := jhashLoop ⟨start, start, start⟩ key
  let byte i n := shifted (k.getD i 0) n
  if k = [] then s.c
  else
    JhashState.final
      { a := s.a + byte 3 24 + byte 2 16 + byte 1 8 + byte 0 0
        b := s.b + byte 7 24 + byte 6 16 + byte 5 8 + byte 4 0
        c := s.c + byte 11 24 + byte 10 16 + byte 9 8 + byte 8 0 }

def djb2 (data : List UInt8) (seed hash_index : BitVec 32) : BitVec 32 :=
  let hash : BitVec 32 := data.foldl (fun hash b => (hash <<< 5) + hash + shifted b 0)
    (seed + hash_index * 0x9e3779b9)
  let hash := hash ^^^ hash >>> 16
  let hash := hash * 0x85ebca6b
  let hash := hash ^^^ hash >>> 13
  let hash := hash * 0xc2b2ae35
  hash ^^^ hash >>> 16

/-- `bloom_filter_map_impl` -/
structure BloomFilterMap (value_size : ℕ) where
  max_entries : ℕ
  nr_hashes : ℕ
  hash_algorithm : BloomHashAlgorithm
  hash_seed : BitVec 32
  bit_array_size_bits : ℕ
  bit_array_size_bytes : ℕ
  bit_array_mask : BitVec 32
  bit_array : List (BitVec 8)

/-- `calculate_optimal_bit_array_size` -/
def calculateOptimalBitArraySize (max_entries nr_hashes : ℕ) : ℕ :=
  let optimal_size := max_entries * nr_hashes * 7 % 2^64 / 5
  let optimal_size := if optimal_size < 64 then 64 else optimal_size
  if 2^31 < optimal_size then 2^31 else optimal_size

/-- The loop that doubles a power of two until it is not below `bits`, for at most `fuel` turns. -/
def powerOf2Bits : ℕ → ℕ → ℕ → Option ℕ
  | 0, _, _ => none
  | fuel + 1, power_of_2_bits, bits =>
    if power_of_2_bits < bits then powerOf2Bits fuel (power_of_2_bits * 2 % 2^64) bits
    else some power_of_2_bits

inductive Op (value_size : ℕ) where
  | elemLookup
  | elemUpdate (value : Option (MapValue value_size)) (flags : ℕ)
  | elemDelete
  | mapGetNextKey
  | mapPushElem (value : Option (MapValue value_size)) (flags : ℕ)
  | mapPopElem
  | mapPeekElem (value : Option (MapValue value_size))

namespace BloomFilterMap

variable {value_size : ℕ}

/-- The constructor, which throws for arguments that it does not admit. -/
def create (value_size max_entries nr_hashes : ℕ) (hash_algorithm : BloomHashAlgorithm)
    (seed : BitVec 32) : Option (BloomFilterMap value_size) :=
  if value_size = 0 ∨ max_entries = 0 then none
  else if nr_hashes = 0 ∨ 15 < nr_hashes then none
  else
    (powerOf2Bits 64 1 (calculateOptimalBitArraySize max_entries nr_hashes)).map fun bits =>
      { max_entries
        nr_hashes
        hash_algorithm
        hash_seed := seed
        bit_array_size_bits := bits
        bit_array_size_bytes := (bits + 7) / 8
        bit_array_mask := BitVec.ofNat 32 (bits - 1)
        bit_array := List.replicate ((bits + 7) / 8) 0 }

variable (f : BloomFilterMap value_size)

/-- `hash_value` -/
def hashValue (value : MapValue value_size) (hash_index : ℕ) : BitVec 32 :=
  let hash :=
    match f.hash_algorithm with
    | .JHASH => jhash value.1 (f.hash_seed + BitVec.ofNat 32 hash_index)
    | .DJB2 => djb2 value.1 f.hash_seed (BitVec.ofNat 32 hash_index)
  hash &&& f.bit_array_mask

/-- `set_bit`, which leaves the array alone if the bit is not in it. -/
def setBit (bit_index : BitVec 32) : BloomFilterMap value_size :=
  let byte_index := bit_index.toNat / 8
  let bit_offset := bit_index.toNat % 8
  { f with bit_array := f.bit_array.modify byte_index fun b => b ||| (1 : BitVec 8) <<< bit_offset }

/-- `test_bit` -/
def testBit (bit_index : BitVec 32) : Bool :=
  let byte_index := bit_index.toNat / 8
  let bit_offset := bit_index.toNat % 8
  match f.bit_array[byte_index]? with
  | some b => b &&& (1 : BitVec 8) <<< bit_offset ≠ 0
  | none => false

/-- The loop that sets the bits of a value, for the hashes from `i` on. -/
def setBits (value : MapValue value_size) : List ℕ → BloomFilterMap value_size → BloomFilterMap value_size
  | [], f => f
  | i :: is, f => setBits value is (f.setBit (f.hashValue value i))

/-- What `elem_update` and `map_push_elem` both do. -/
def push (value : Option (MapValue value_size)) (flags : ℕ) : Outcome × BloomFilterMap value_size :=
  match value with
  | none => (.error .EINVAL, f)
  | some value =>
    if flags ≠ bpfAny then (.error .EINVAL, f)
    else (.ok, setBits value (List.range f.nr_hashes) f)

/-- `elem_update`, which ignores its key. -/
def elemUpdate (value : Option (MapValue value_size)) (flags : ℕ) : Outcome × BloomFilterMap value_size :=
  f.push value flags

/-- `map_push_elem` -/
def mapPushElem (value : Option (MapValue value_size)) (flags : ℕ) : Outcome × BloomFilterMap value_size :=
  f.push value flags

/-- `map_peek_elem` -/
def mapPeekElem (value : Option (MapValue value_size)) : Outcome :=
  match value with
  | none => .error .EINVAL
  | some value =>
    if (List.range f.nr_hashes).all fun i => f.testBit (f.hashValue value i) then .ok
    else .error .ENOENT

def step : Op value_size → Option (Outcome × BloomFilterMap value_size)
  | .elemLookup => some (.error .ENOTSUP, f)
  | .elemUpdate value flags => some (f.elemUpdate value flags)
  | .elemDelete => some (.error .ENOTSUP, f)
  | .mapGetNextKey => some (.error .ENOTSUP, f)
  | .mapPushElem value flags => some (f.mapPushElem value flags)
  | .mapPopElem => some (.error .ENOTSUP, f)
  | .mapPeekElem value => some (f.mapPeekElem value, f)

end BloomFilterMap

end Bpftime.BloomFilter
