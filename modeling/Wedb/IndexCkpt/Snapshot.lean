import Wedb.IndexCkpt.Batch

/-!
# Writing and reading an index checkpoint

The file holds the header, the main buckets and the overflow buckets in the order of their ids.
-/

namespace Wedb.IndexCkpt

open BatchReader List

/-- `CHUNK_SIZE`. -/
def chunkSize : Nat := 1024

/-- `MAX_CHUNKS`. -/
def maxChunks : Nat := 4096

/-- The overflow buckets that were ever allocated; the bucket with the id `i` stands at place
`i - 1`. The first word of a free bucket is the id of the next free one. -/
structure OverflowPool where
  buckets : List HashBucket
  freeHead : Nat
  allocated_le : buckets.length ≤ maxChunks * chunkSize

namespace OverflowPool

def new : OverflowPool := ⟨[], 0, Nat.zero_le _⟩

def allocatedCount (p : OverflowPool) : Nat := p.buckets.length

def get (p : OverflowPool) (id : Nat) : Option HashBucket :=
  if id = 0 then none else p.buckets[id - 1]?

/-- Store the words of a bucket. -/
def set (p : OverflowPool) (id : Nat) (b : HashBucket) : OverflowPool :=
  { p with
    buckets := p.buckets.set (id - 1) b
    allocated_le := length_set.trans_le p.allocated_le }

/-- A free bucket is taken first. -/
def allocate (p : OverflowPool) : Except Error (Nat × OverflowPool) :=
  match p.get p.freeHead with
  | some bucket =>
    let entries := Function.update bucket.entries 0 0
    .ok (p.freeHead,
      { p.set p.freeHead ⟨entries⟩ with freeHead := (bucket.entries 0).toNat % 2 ^ 32 })
  | none =>
    if h : p.buckets.length / chunkSize < maxChunks then
      .ok (p.buckets.length + 1,
        { p with
          buckets := p.buckets ++ [.zero]
          allocated_le := by
            rw [length_append]
            exact (Nat.div_lt_iff_lt_mul (by decide)).1 h })
    else .error .overflowPoolExhausted

end OverflowPool

/-- The number of main buckets is a power of two, and their bytes can be addressed. -/
structure HashIndex where
  buckets : List HashBucket
  overflowPool : OverflowPool
  size_isPow : ∃ k, buckets.length = 2 ^ k
  size_lt : buckets.length * bucketBytes < 2 ^ 64

namespace HashIndex

def size (index : HashIndex) : Nat := index.buckets.length

/-- An empty index. -/
def new (numBuckets : Nat) : Except Error HashIndex :=
  if hpow : numBuckets ≠ 0 ∧ 2 ^ numBuckets.log2 = numBuckets then
    if hlt : numBuckets * bucketBytes < 2 ^ 64 then
      .ok
        { buckets := replicate numBuckets .zero
          overflowPool := .new
          size_isPow := ⟨numBuckets.log2, by rw [length_replicate, hpow.2]⟩
          size_lt := by rwa [length_replicate] }
    else .error (.invalidBucketCount numBuckets)
  else .error (.invalidBucketCount numBuckets)

/-- The same index with other words in its buckets. -/
def fill (index : HashIndex) (bs : { bs : List HashBucket // bs.length = index.buckets.length })
    (overflowPool : OverflowPool) : HashIndex where
  buckets := bs
  overflowPool := overflowPool
  size_isPow := by rw [bs.2]; exact index.size_isPow
  size_lt := by rw [bs.2]; exact index.size_lt

end HashIndex

structure IndexMeta where
  size : Nat
  overflowCount : Nat
  entryCount : Nat
  deriving DecidableEq, Repr

variable (c : Crc32Hasher)

/-- The bucket of an id, or an empty one for a hole. -/
def writeOverflowBucket {c : Crc32Hasher} (w : BatchWriter c) : Option HashBucket → BatchWriter c
  | some b => w.writeBucket b
  | none => w.writeZeroBucket

/-- The main buckets, then the overflow buckets by their ids. -/
def writeBuckets {c : Crc32Hasher} (index : HashIndex) (w : BatchWriter c) : BatchWriter c :=
  let w := index.buckets.foldl .writeBucket w
  let ids := range' 1 index.overflowPool.allocatedCount
  let w := (ids.map index.overflowPool.get).foldl writeOverflowBucket w
  w.finish

/-- The header of the file for a checksum of the buckets. -/
def ckptHeader (index : HashIndex) (entryCount : UInt64) (token : BitVec 128) (crc : UInt32) :
    IndexCkptHeader :=
  { version := indexVersion
    crc
    token
    numBuckets := UInt64.ofNat index.size
    overflowCount := UInt64.ofNat index.overflowPool.allocatedCount
    entryCount }

def writeIndexCheckpoint (index : HashIndex) (entryCount : UInt64) (token : BitVec 128)
    (rcResolve : UInt64 → Nat) : ByteFile × IndexMeta :=
  let overflowCount := index.overflowPool.allocatedCount
  -- the checksum is filled in when the buckets are written
  let file := ByteFile.writeAllAt [] (ckptHeader index entryCount token 0).encode 0
  let w : BatchWriter c := .new file c.new headerSize overflowCount rcResolve
  let w := writeBuckets index w
  let crc := c.finalize w.hasher
  (w.file.writeAllAt (LittleEndian.encode 4 crc.toNat) headerCrcOffset,
    ⟨index.size, overflowCount, entryCount.toNat⟩)

/-- Restore as many main buckets as the new index has. -/
def readBuckets {c : Crc32Hasher} (tail : Option Nat) :
    (n : Nat) → BatchReader c →
      Except Error ({ bs : List HashBucket // bs.length = n } × BatchReader c)
  | 0, r => .ok (⟨[], rfl⟩, r)
  | n + 1, r => do
    let (b, r) ← r.readBucketInto tail
    let (bs, r) ← readBuckets tail n r
    .ok (⟨b :: bs, by rw [length_cons, bs.2]⟩, r)

/-- Restore overflow buckets, the next of them with the id `j`. -/
def readOverflow {c : Crc32Hasher} (tail : Option Nat) :
    (todo j : Nat) → OverflowPool → BatchReader c → Except Error (OverflowPool × BatchReader c)
  | 0, _, pool, r => .ok (pool, r)
  | todo + 1, j, pool, r => do
    let (id, pool) ← pool.allocate
    if id ≠ j then
      throw (.invalidIndexCkpt s!"溢出桶分配序号错乱: 期望 {j}，实际 {id}")
    if (pool.get id).isNone then
      throw (.invalidIndexCkpt s!"无法获取分配的溢出桶 {id}")
    let (b, r) ← r.readBucketInto tail
    readOverflow tail todo (j + 1) (pool.set id b) r

/-- The header of the file and the checks on it. -/
def readHeader (file : ByteFile) (expectedToken : BitVec 128) : Except Error IndexCkptHeader := do
  if file.length < headerSize then
    throw (.invalidIndexCkpt "文件长度不足头部大小")
  let some bytes := file.readExactAt 0 headerSize | throw .io
  let some header := IndexCkptHeader.decodeOpt bytes
    | throw (.invalidIndexCkpt "文件魔数不匹配或头部长度不足")
  if header.version ≠ indexVersion then
    throw (.invalidIndexCkpt s!"不支持的版本号: {header.version}")
  if header.token ≠ expectedToken then
    throw (.tokenMismatch expectedToken header.token)
  return header

/-- The length of the buckets in the file, with checked arithmetic of 64 bits. -/
def expectedDataLen (header : IndexCkptHeader) (fileLen : Nat) : Except Error Nat := do
  let totalBuckets := header.numBuckets.toNat + header.overflowCount.toNat
  if 2 ^ 64 ≤ totalBuckets then
    throw (.invalidIndexCkpt "桶总数算术溢出")
  let dataLen := totalBuckets * bucketBytes
  if 2 ^ 64 ≤ dataLen then
    throw (.invalidIndexCkpt "数据长度算术溢出")
  let expectedLen := headerSize + dataLen
  if 2 ^ 64 ≤ expectedLen then
    throw (.invalidIndexCkpt "文件总长度算术溢出")
  if fileLen ≠ expectedLen then
    throw (.invalidIndexCkpt s!"文件长度异常: 期望 {expectedLen} 字节，实际 {fileLen} 字节")
  return dataLen

/-- The buckets of the file, into a new index. -/
def restore (header : IndexCkptHeader) (file : ByteFile) (dataLen : Nat) (tail : Option Nat) :
    Except Error (HashIndex × c.State) := do
  let index ← HashIndex.new header.numBuckets.toNat
  let r : BatchReader c := .new file c.new headerSize dataLen header.overflowCount.toNat
  let (buckets, r) ← readBuckets tail index.buckets.length r
  let (overflowPool, r) ← readOverflow tail header.overflowCount.toNat 1 index.overflowPool r
  return (index.fill buckets overflowPool, r.hasher)

/-- `file` is `none` if there is no file at the path. -/
def readIndexCheckpointTruncated (file : Option ByteFile) (expectedToken : BitVec 128)
    (tail : Option Nat) : Except Error (HashIndex × IndexMeta) := do
  let some file := file | throw .indexCkptNotFound
  let header ← readHeader file expectedToken
  let dataLen ← expectedDataLen header file.length
  let (index, hasher) ← restore c header file dataLen tail
  let actualCrc := c.finalize hasher
  if actualCrc ≠ header.crc then
    throw (.checksumMismatch header.crc actualCrc)
  return (index, ⟨header.numBuckets.toNat, header.overflowCount.toNat, header.entryCount.toNat⟩)

/-! ### What the writer leaves in the file -/

/-- All buckets in the order of the file. -/
def HashIndex.allBuckets (index : HashIndex) : List HashBucket :=
  index.buckets ++ index.overflowPool.buckets

/-- A bucket as it is in the file. -/
def written (rcResolve : UInt64 → Nat) (maxOverflow : Nat) (b : HashBucket) : HashBucket :=
  b.mapSlots (fun raw => sanitizeDataSlot (resolveReadCache rcResolve raw) none)
    (fun raw => sanitizeOverflowSlot raw maxOverflow)

def bucketData (rcResolve : UInt64 → Nat) (index : HashIndex) : List UInt8 :=
  (index.allBuckets.map fun b =>
    (written rcResolve index.overflowPool.allocatedCount b).toBytes).flatten

/-- There are no holes among the ids up to the number of allocated buckets. -/
lemma OverflowPool.map_get (p : OverflowPool) :
    (range' 1 p.allocatedCount).map p.get = p.buckets.map some := by
  apply ext_getElem
  · simp [allocatedCount]
  · intro i hi hi'
    simp [get]

lemma writeBuckets_eq (index : HashIndex) (w : BatchWriter c) :
    writeBuckets index w = (index.allBuckets.foldl .writeBucket w).finish := by
  rw [writeBuckets, OverflowPool.map_get, foldl_map, HashIndex.allBuckets, foldl_append]
  rfl

lemma writeIndexCheckpoint_eq (index : HashIndex) (entryCount : UInt64) (token : BitVec 128)
    (rcResolve : UInt64 → Nat) :
    let data := bucketData rcResolve index
    let crc := c.finalize (c.update c.new data)
    writeIndexCheckpoint c index entryCount token rcResolve =
      ((ckptHeader index entryCount token crc).encode ++ data,
        ⟨index.size, index.overflowPool.allocatedCount, entryCount.toNat⟩) := by
  have hfile : ByteFile.writeAllAt [] (ckptHeader index entryCount token 0).encode 0 =
      (ckptHeader index entryCount token 0).encode := ByteFile.writeAllAt_end [] _
  have hready : (BatchWriter.new (ckptHeader index entryCount token 0).encode c.new
      headerSize index.overflowPool.allocatedCount rcResolve).Ready :=
    ⟨dvd_zero _, show 0 < batchBytes by decide⟩
  have hholds := BatchWriter.holds_new (c := c) (ckptHeader index entryCount token 0).encode
    index.overflowPool.allocatedCount rcResolve
  rw [IndexCkptHeader.length_encode] at hholds
  obtain ⟨hout, hhasher⟩ := BatchWriter.finish_foldl_writeBucket hholds hready index.allBuckets
  rw [← writeBuckets_eq] at hout hhasher
  intro data crc
  rw [writeIndexCheckpoint, hfile, hout, hhasher, IndexCkptHeader.writeAllAt_crc]
  rfl

/-! ### What the reader makes of it -/

variable {c} {r : BatchReader c} {data rest : List UInt8} {bs : List HashBucket}

lemma readBuckets_eq (tail : Option Nat) {n : Nat} (hn : bs.length = n)
    (h : r.Unread data ((bs.map HashBucket.toBytes).flatten ++ rest)) :
    ∃ r', readBuckets tail n r =
        .ok (⟨bs.map (fun b => restored r.maxOverflow tail b.toBytes),
          (length_map _).trans hn⟩, r') ∧
      r'.Unread data rest ∧ r'.maxOverflow = r.maxOverflow := by
  subst hn
  induction bs generalizing r with
  | nil => exact ⟨r, rfl, h, rfl⟩
  | cons b bs ih =>
    rw [map_cons, flatten_cons, append_assoc] at h
    obtain ⟨r₁, hread, hunread, hmax⟩ := h.readBucketInto b.length_toBytes tail
    obtain ⟨r', hreads, hrest, hmax'⟩ := ih hunread
    rw [hmax] at hreads
    refine ⟨r', ?_, hrest, hmax'.trans hmax⟩
    change readBuckets tail (bs.length + 1) r = _
    rw [readBuckets, hread]
    simp only [bind, Except.bind]
    rw [hreads]
    rfl

/-- A pool without free buckets gives the next id. -/
lemma OverflowPool.allocate_eq {p : OverflowPool} (hfree : p.freeHead = 0)
    (hroom : p.buckets.length < maxChunks * chunkSize) :
    ∃ p', p.allocate = .ok (p.buckets.length + 1, p') ∧ p'.buckets = p.buckets ++ [.zero] ∧
      p'.freeHead = 0 := by
  have hget : p.get p.freeHead = none := by rw [hfree]; rfl
  have hchunk : p.buckets.length / chunkSize < maxChunks :=
    (Nat.div_lt_iff_lt_mul (by decide)).2 hroom
  rw [allocate, hget]
  rw [dif_pos hchunk]
  exact ⟨_, rfl, rfl, hfree⟩

/-- The bucket that was added last is the one that is stored. -/
lemma OverflowPool.set_last {p : OverflowPool} {b : HashBucket}
    (hp : p.buckets = bs ++ [b]) (b' : HashBucket) :
    (p.get (bs.length + 1)).isNone = false ∧ (p.set (bs.length + 1) b').buckets = bs ++ [b'] := by
  constructor
  · simp [get, hp]
  · simp [set, hp]

lemma readOverflow_eq (tail : Option Nat) {pool : OverflowPool}
    (h : r.Unread data ((bs.map HashBucket.toBytes).flatten ++ rest)) (hfree : pool.freeHead = 0)
    (hroom : pool.buckets.length + bs.length ≤ maxChunks * chunkSize) :
    ∃ pool' r', readOverflow tail bs.length (pool.buckets.length + 1) pool r = .ok (pool', r') ∧
      pool'.buckets = pool.buckets ++ bs.map (fun b => restored r.maxOverflow tail b.toBytes) ∧
      pool'.freeHead = 0 ∧ r'.Unread data rest := by
  induction bs generalizing r pool with
  | nil => exact ⟨pool, r, rfl, (append_nil _).symm, hfree, h⟩
  | cons b bs ih =>
    rw [map_cons, flatten_cons, append_assoc] at h
    rw [length_cons] at hroom ⊢
    obtain ⟨p, halloc, hp, hpfree⟩ := OverflowPool.allocate_eq hfree (by omega)
    obtain ⟨r₁, hread, hunread, hmax⟩ := h.readBucketInto b.length_toBytes tail
    obtain ⟨hget, hset⟩ := OverflowPool.set_last hp (restored r.maxOverflow tail b.toBytes)
    have hlen := congrArg length hset
    rw [length_append, length_singleton] at hlen
    have hsetFree : (p.set (pool.buckets.length + 1)
        (restored r.maxOverflow tail b.toBytes)).freeHead = 0 := hpfree
    obtain ⟨pool', r', hreads, hpool, hfree', hrest⟩ := ih hunread hsetFree (by omega)
    refine ⟨pool', r', ?_, ?_, hfree', hrest⟩
    · rw [hlen] at hreads
      rw [readOverflow, halloc]
      simp only [bind, Except.bind, ne_eq, hget, hread]
      exact hreads
    · rw [hpool, hset, hmax, map_cons, append_assoc, singleton_append]

/-- A bucket as it is restored. -/
def recovered (rcResolve : UInt64 → Nat) (maxOverflow : Nat) (tail : Option Nat) (b : HashBucket) :
    HashBucket :=
  b.mapSlots (fun raw => sanitizeDataSlot (resolveReadCache rcResolve raw) tail)
    (fun raw => sanitizeOverflowSlot raw maxOverflow)

lemma restored_written (rcResolve : UInt64 → Nat) (maxOverflow : Nat) (tail : Option Nat)
    (b : HashBucket) :
    restored maxOverflow tail (written rcResolve maxOverflow b).toBytes =
      recovered rcResolve maxOverflow tail b := by
  rw [restored, HashBucket.ofBytes_toBytes, written, HashBucket.mapSlots_mapSlots]
  congr 1
  · funext raw
    exact sanitizeDataSlot_sanitizeDataSlot _ tail
  · funext raw
    exact sanitizeOverflowSlot_sanitizeOverflowSlot raw maxOverflow

lemma HashIndex.new_size (index : HashIndex) :
    ∃ idx, HashIndex.new index.size = .ok idx ∧ idx.buckets.length = index.buckets.length ∧
      idx.overflowPool = .new := by
  have hpow : index.size ≠ 0 ∧ 2 ^ index.size.log2 = index.size := by
    obtain ⟨k, hk⟩ := index.size_isPow
    rw [size, hk, Nat.log2_two_pow]
    exact ⟨(Nat.two_pow_pos k).ne', rfl⟩
  have hlt : index.size * bucketBytes < 2 ^ 64 := index.size_lt
  rw [new, dif_pos hpow, dif_pos hlt]
  exact ⟨_, rfl, length_replicate, rfl⟩

lemma length_bucketData (rcResolve : UInt64 → Nat) (index : HashIndex) :
    (bucketData rcResolve index).length =
      (index.size + index.overflowPool.allocatedCount) * bucketBytes := by
  simp [bucketData, HashIndex.allBuckets, Function.comp_def, HashBucket.length_toBytes,
    HashIndex.size, OverflowPool.allocatedCount, add_mul, map_const']

section

variable (index : HashIndex) (entryCount : UInt64) (token : BitVec 128) (crc : UInt32)

lemma HashIndex.size_le : index.size ≤ 2 ^ 57 := by
  obtain ⟨k, hk⟩ := index.size_isPow
  have hlt := index.size_lt
  rw [hk, show bucketBytes = 2 ^ 6 from rfl, ← pow_add] at hlt
  have hexp : k + 6 < 64 := (Nat.pow_lt_pow_iff_right (by decide)).1 hlt
  rw [size, hk]
  exact Nat.pow_le_pow_right (by decide) (by omega)

lemma HashIndex.allocatedCount_le : index.overflowPool.allocatedCount ≤ 2 ^ 22 :=
  index.overflowPool.allocated_le

@[simp] lemma toNat_numBuckets :
    (ckptHeader index entryCount token crc).numBuckets.toNat = index.size :=
  UInt64.toNat_ofNat_of_lt' (index.size_le.trans_lt (by decide))

@[simp] lemma toNat_overflowCount :
    (ckptHeader index entryCount token crc).overflowCount.toNat =
      index.overflowPool.allocatedCount :=
  UInt64.toNat_ofNat_of_lt' (index.allocatedCount_le.trans_lt (by decide))

lemma readHeader_eq (data : List UInt8) :
    readHeader ((ckptHeader index entryCount token crc).encode ++ data) token =
      .ok (ckptHeader index entryCount token crc) := by
  have hlen := (ckptHeader index entryCount token crc).length_encode
  have hlong : headerSize ≤ ((ckptHeader index entryCount token crc).encode ++ data).length := by
    rw [length_append]
    exact Nat.le_add_right _ _
  have hread : ByteFile.readExactAt ((ckptHeader index entryCount token crc).encode ++ data) 0
      headerSize = some (ckptHeader index entryCount token crc).encode := by
    rw [ByteFile.readExactAt_of_le (by rwa [zero_add]), drop_zero, take_left' hlen]
  rw [readHeader, if_neg (not_lt.2 hlong), hread]
  simp only [IndexCkptHeader.decodeOpt_encode]
  simp [ckptHeader, pure, Except.pure]

lemma expectedDataLen_eq :
    expectedDataLen (ckptHeader index entryCount token crc)
        (headerSize + (index.size + index.overflowPool.allocatedCount) * bucketBytes) =
      .ok ((index.size + index.overflowPool.allocatedCount) * bucketBytes) := by
  have hsize := index.size_le
  have hcount := index.allocatedCount_le
  rw [expectedDataLen, toNat_numBuckets, toNat_overflowCount]
  simp only [headerSize, bucketBytes, ne_eq]
  rw [if_neg (by omega), if_neg (by omega), if_neg (by omega)]
  rfl

end

/-- What a restored index has in its buckets. -/
structure Recovers (rcResolve : UInt64 → Nat) (tail : Option Nat) (index index' : HashIndex) :
    Prop where
  buckets : index'.buckets =
    index.buckets.map (recovered rcResolve index.overflowPool.allocatedCount tail)
  overflow : index'.overflowPool.buckets =
    index.overflowPool.buckets.map (recovered rcResolve index.overflowPool.allocatedCount tail)
  freeHead : index'.overflowPool.freeHead = 0

variable (c)

/-- The main buckets and the overflow buckets of the file. -/
lemma bucketData_eq (rcResolve : UInt64 → Nat) (index : HashIndex) :
    bucketData rcResolve index =
      ((index.buckets.map (written rcResolve index.overflowPool.allocatedCount)).map
        HashBucket.toBytes).flatten ++
      (((index.overflowPool.buckets.map (written rcResolve index.overflowPool.allocatedCount)).map
        HashBucket.toBytes).flatten ++ []) := by
  rw [bucketData, HashIndex.allBuckets, map_append, flatten_append, append_nil, map_map, map_map]
  rfl

lemma restore_eq (index : HashIndex) (entryCount : UInt64) (token : BitVec 128) (crc : UInt32)
    (rcResolve : UInt64 → Nat) (tail : Option Nat) :
    ∃ index', restore c (ckptHeader index entryCount token crc)
        ((ckptHeader index entryCount token crc).encode ++ bucketData rcResolve index)
        (bucketData rcResolve index).length tail =
          .ok (index', c.update c.new (bucketData rcResolve index)) ∧
      Recovers rcResolve tail index index' := by
  have hdvd : bucketBytes ∣ (bucketData rcResolve index).length := by
    rw [length_bucketData]
    exact dvd_mul_left _ _
  obtain ⟨r, hr⟩ : ∃ r : BatchReader c, r = .new
      ((ckptHeader index entryCount token crc).encode ++ bucketData rcResolve index) c.new
      headerSize (bucketData rcResolve index).length index.overflowPool.allocatedCount := ⟨_, rfl⟩
  have hunread : r.Unread (bucketData rcResolve index) (bucketData rcResolve index) := by
    rw [hr, ← (ckptHeader index entryCount token crc).length_encode]
    exact unread_new _ _ hdvd _
  have hmax : r.maxOverflow = index.overflowPool.allocatedCount := hr ▸ rfl
  obtain ⟨idx, hnew, hlen, hpool⟩ := index.new_size
  -- the main buckets
  nth_rewrite 2 [bucketData_eq] at hunread
  obtain ⟨r₁, hmain, hunread₁, hmax₁⟩ := readBuckets_eq tail
    ((length_map _).trans hlen.symm) hunread
  -- the overflow buckets, into a pool that is still empty
  have hroom : idx.overflowPool.buckets.length +
      (index.overflowPool.buckets.map (written rcResolve index.overflowPool.allocatedCount)).length ≤
        maxChunks * chunkSize := by
    rw [hpool, length_map]
    exact (zero_add _).trans_le index.overflowPool.allocated_le
  obtain ⟨pool, r₂, hover, hbuckets, hfree, hunread₂⟩ := readOverflow_eq tail hunread₁
    (by rw [hpool]; rfl) hroom
  rw [hpool, length_map] at hover
  change readOverflow tail index.overflowPool.allocatedCount 1 .new r₁ = _ at hover
  rw [hmax₁, hmax, hpool] at hbuckets
  rw [hmax] at hmain
  simp only [map_map, Function.comp_def, restored_written] at hmain hbuckets
  refine ⟨idx.fill ⟨_, (length_map _).trans hlen.symm⟩ pool, ?_, ⟨rfl, hbuckets, hfree⟩⟩
  rw [restore, toNat_numBuckets, toNat_overflowCount, hnew, ← hunread₂.hasher_of_nil]
  simp only [bind, Except.bind]
  rw [← hr, hmain]
  simp only
  rw [hpool, hover]
  rfl

lemma readIndexCheckpointTruncated_eq (index : HashIndex) (entryCount : UInt64)
    (token : BitVec 128) (rcResolve : UInt64 → Nat) (tail : Option Nat) :
    ∃ index', readIndexCheckpointTruncated c
        (some (writeIndexCheckpoint c index entryCount token rcResolve).1) token tail =
          .ok (index', (writeIndexCheckpoint c index entryCount token rcResolve).2) ∧
      Recovers rcResolve tail index index' := by
  rw [writeIndexCheckpoint_eq]
  obtain ⟨index', hrestore, hrec⟩ := restore_eq c index entryCount token
    (c.finalize (c.update c.new (bucketData rcResolve index))) rcResolve tail
  refine ⟨index', ?_, hrec⟩
  rw [readIndexCheckpointTruncated]
  simp only [readHeader_eq, bind, Except.bind]
  rw [length_append, IndexCkptHeader.length_encode, length_bucketData, expectedDataLen_eq]
  dsimp only
  rw [← length_bucketData rcResolve, hrestore]
  simp only [toNat_numBuckets, toNat_overflowCount]
  simp [pure, Except.pure, ckptHeader]

end Wedb.IndexCkpt
