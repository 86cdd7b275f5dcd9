import Mathlib.Logic.Function.Basic
import Richter.Kv.Tuple
import Richter.Lib.Service

/-! `internal/kv/kv.go`: values of any length under namespaces and key tuples, split over the cells
of FoundationDB.  A transaction is one step; `none` is a panic within it. -/

namespace Richter.Kv

open Lib

/-- `maxValueBytes`. -/
def maxValueBytes : Nat := 90000

/-- The cells of the database. -/
abbrev Db := Bytes → Option Bytes

namespace Db

def empty : Db := fun _ => none

def set (k v : Bytes) (db : Db) : Db := Function.update db k (some v)

def clear (k : Bytes) (db : Db) : Db := Function.update db k none

end Db

/-- `binary.LittleEndian.Uint32`, which panics on less than four bytes. -/
def uint32 : Bytes → Option Nat
  | b0 :: b1 :: b2 :: b3 :: _ =>
      some (b0.toNat + b1.toNat * 2 ^ 8 + b2.toNat * 2 ^ 16 + b3.toNat * 2 ^ 24)
  | _ => none

/-- `binary.LittleEndian.PutUint32` of a conversion to `uint32`. -/
def putUint32 (n : Nat) : Bytes :=
  [UInt8.ofNat n, UInt8.ofNat (n / 2 ^ 8), UInt8.ofNat (n / 2 ^ 16), UInt8.ofNat (n / 2 ^ 24)]

def splitBytes (data : Bytes) (chunkSize : Nat) (hSize : 0 < chunkSize) : List Bytes :=
  if _ : 0 < data.length then
    data.take (min chunkSize data.length) ::
      splitBytes (data.drop (min chunkSize data.length)) chunkSize hSize
  else []
termination_by data.length
decreasing_by
  rw [List.length_drop]
  omega

section KVSvc

variable {E : Type} (layer : TupleLayer E) (ns : String) (key : List E)

def metaKey : Bytes := layer.pack [layer.string ns, layer.string "m"] ++ layer.pack key

def chunkKey (idx : Nat) : Bytes :=
  layer.pack [layer.string ns, layer.string "c"] ++ layer.pack key ++ layer.pack [layer.int idx]

def setMeta (n : Nat) (db : Db) : Db := db.set (metaKey layer ns key) (putUint32 n)

/-- The loop that clears the first `n` chunks. -/
def clearChunks : Nat → Db → Db
  | 0, db => db
  | n + 1, db => (clearChunks n db).clear (chunkKey layer ns key n)

/-- The loop that sets the chunks, from the `i`-th on. -/
def setChunks : Nat → List Bytes → Db → Db
  | _, [], db => db
  | i, chunk :: chunks, db => setChunks (i + 1) chunks (db.set (chunkKey layer ns key i) chunk)

/-- The cells of a key, its count first, are cleared. -/
def clearAll (db : Db) : Option Db :=
  match db (metaKey layer ns key) with
  | none => some db
  | some old => (uint32 old).map fun n =>
      clearChunks layer ns key n (db.clear (metaKey layer ns key))

/-- `KVSvc.Set`. -/
def set (value : Bytes) (db : Db) : Option Db := do
  let db ← clearAll layer ns key db
  let chunks := splitBytes value maxValueBytes (by decide)
  return setChunks layer ns key 0 chunks (setMeta layer ns key chunks.length db)

/-- `KVSvc.Get`: the bytes, or `nil`. -/
def get (db : Db) : Option (Option Bytes) :=
  match db (metaKey layer ns key) with
  | none => some none
  | some metaBytes => do
    let n ← uint32 metaBytes
    if n = 1 then return db (chunkKey layer ns key 0)
    else
      let out := (List.range n).flatMap fun i => (db (chunkKey layer ns key i)).getD []
      return if out = [] then none else some out

/-- `KVSvc.Delete`. -/
def delete (db : Db) : Option Db := clearAll layer ns key db

end KVSvc

/-- A call of the service. -/
inductive KvCall (E : Type)
  | set (ns : String) (key : List E) (value : Bytes)
  | delete (ns : String) (key : List E)
  | get (ns : String) (key : List E)

/-- The service on FoundationDB; a `Get` answers with its bytes. -/
def kvSvc {E : Type} (layer : TupleLayer E) : Service Db (KvCall E) (Option Bytes) where
  call db
    | .set ns key value => (set layer ns key value db).map fun db' => (none, db')
    | .delete ns key => (delete layer ns key db).map fun db' => (none, db')
    | .get ns key => (get layer ns key db).map fun value => (value, db)

/-- What the service is for: a map from namespaces and keys to the last values. -/
abbrev KvMap (E : Type) := String × List E → Option Bytes

/-- The service on a map; a value without bytes is as good as none. -/
def mapSvc {E : Type} [DecidableEq E] : Service (KvMap E) (KvCall E) (Option Bytes) where
  call m
    | .set ns key value => some (none, Function.update m (ns, key) (some value))
    | .delete ns key => some (none, Function.update m (ns, key) none)
    | .get ns key => some ((m (ns, key)).filter fun value => value ≠ [], m)

section Split

variable {chunkSize : Nat} {hSize : 0 < chunkSize}

theorem splitBytes_cons {data : Bytes} (h : data ≠ []) :
    splitBytes data chunkSize hSize =
      data.take (min chunkSize data.length) ::
        splitBytes (data.drop (min chunkSize data.length)) chunkSize hSize := by
  have hLength : 0 < data.length := List.length_pos_iff.mpr h
  rw [splitBytes, dif_pos hLength]

@[simp] theorem splitBytes_nil : splitBytes [] chunkSize hSize = [] := by
  rw [splitBytes, dif_neg (by simp)]

/-- The rule for what holds of the chunks of all data: a first chunk is cut off. -/
theorem splitBytes_induction (hSize : 0 < chunkSize) {P : Bytes → Prop} (hNil : P [])
    (hCons : ∀ data : Bytes, data ≠ [] → P (data.drop (min chunkSize data.length)) → P data)
    (data : Bytes) : P data := by
  induction hn : data.length using Nat.strong_induction_on generalizing data with
  | _ n ih =>
    by_cases h : data = []
    · exact h ▸ hNil
    · have hLength : 0 < data.length := List.length_pos_iff.mpr h
      refine hCons data h (ih _ ?_ _ rfl)
      rw [List.length_drop]
      omega

/-- The chunks put together are the data. -/
theorem splitBytes_flatten (data : Bytes) : (splitBytes data chunkSize hSize).flatten = data := by
  induction data using splitBytes_induction hSize with
  | hNil => simp
  | hCons data h ih => rw [splitBytes_cons h, List.flatten_cons, ih, List.take_append_drop]

/-- All chunks but the last are full. -/
theorem length_splitBytes_mul (data : Bytes) :
    (splitBytes data chunkSize hSize).length * chunkSize < data.length + chunkSize := by
  induction data using splitBytes_induction hSize with
  | hNil => simpa using hSize
  | hCons data h ih =>
    have hLength : 0 < data.length := List.length_pos_iff.mpr h
    rw [splitBytes_cons h, List.length_cons, Nat.succ_mul]
    by_cases hFull : chunkSize ≤ data.length
    · rw [List.length_drop, Nat.min_eq_left hFull] at ih
      rw [Nat.min_eq_left hFull]
      omega
    · have hRest : data.drop (min chunkSize data.length) = [] := by
        rw [List.drop_eq_nil_iff]
        omega
      rw [hRest, splitBytes_nil]
      simpa using hLength

end Split

theorem uint32_putUint32 {n : Nat} (h : n < 2 ^ 32) : uint32 (putUint32 n) = some n := by
  simp only [uint32, putUint32, UInt8.toNat_ofNat', Option.some.injEq]
  omega

section Cells

variable {E : Type} {layer : TupleLayer E} {ns ns' : String} {key key' : List E}

theorem metaKey_eq : metaKey layer ns key =
    layer.pack (layer.string ns :: layer.string "m" :: key) := (layer.pack_append _ _).symm

theorem chunkKey_eq (idx : Nat) : chunkKey layer ns key idx =
    layer.pack (layer.string ns :: layer.string "c" :: (key ++ [layer.int idx])) := by
  unfold chunkKey
  rw [← layer.pack_append, ← layer.pack_append]
  rfl

/-- The cells of counts are told apart by the namespace and the key. -/
theorem metaKey_inj (h : metaKey layer ns key = metaKey layer ns' key') :
    ns = ns' ∧ key = key' := by
  rw [metaKey_eq, metaKey_eq] at h
  obtain ⟨hNs, hRest⟩ := List.cons.inj (layer.pack_injective h)
  exact ⟨layer.string_injective hNs, (List.cons.inj hRest).2⟩

/-- The cells of chunks are told apart by the namespace, the key and the number. -/
theorem chunkKey_inj {i j : Nat} (hi : i < 2 ^ 32) (hj : j < 2 ^ 32)
    (h : chunkKey layer ns key i = chunkKey layer ns' key' j) :
    (ns = ns' ∧ key = key') ∧ i = j := by
  rw [chunkKey_eq, chunkKey_eq] at h
  obtain ⟨hNs, hRest⟩ := List.cons.inj (layer.pack_injective h)
  obtain ⟨hKey, hIdx⟩ := List.append_inj' (List.cons.inj hRest).2 rfl
  exact ⟨⟨layer.string_injective hNs, hKey⟩,
    layer.int_injective i j hi hj (List.cons.inj hIdx).1⟩

/-- No cell is that of a count and of a chunk, be one key a part of the other. -/
theorem metaKey_ne_chunkKey (i : Nat) : metaKey layer ns key ≠ chunkKey layer ns' key' i := by
  rw [metaKey_eq, chunkKey_eq]
  intro h
  have hTag := (List.cons.inj (List.cons.inj (layer.pack_injective h)).2).1
  exact absurd (layer.string_injective hTag) (by decide)

theorem clearChunks_other {n : Nat} {db : Db} {k : Bytes}
    (h : ∀ i < n, k ≠ chunkKey layer ns key i) : clearChunks layer ns key n db k = db k := by
  induction n with
  | zero => rfl
  | succ n ih =>
    rw [clearChunks, Db.clear, Function.update_of_ne (h n n.lt_succ_self)]
    exact ih fun i hi => h i (Nat.lt_succ_of_lt hi)

theorem clearChunks_chunk {n : Nat} {db : Db} (hn : n ≤ 2 ^ 32) {i : Nat} (hi : i < n) :
    clearChunks layer ns key n db (chunkKey layer ns key i) = none := by
  induction n with
  | zero => exact absurd hi i.not_lt_zero
  | succ n ih =>
    rw [clearChunks, Db.clear]
    by_cases hLast : i = n
    · rw [hLast, Function.update_self]
    · have hNe : chunkKey layer ns key i ≠ chunkKey layer ns key n := fun h =>
        hLast (chunkKey_inj (by omega) (by omega) h).2
      rw [Function.update_of_ne hNe]
      exact ih (by omega) (by omega)

theorem setChunks_other {chunks : List Bytes} {i : Nat} {db : Db} {k : Bytes}
    (h : ∀ j, i ≤ j → j < i + chunks.length → k ≠ chunkKey layer ns key j) :
    setChunks layer ns key i chunks db k = db k := by
  induction chunks generalizing i db with
  | nil => rfl
  | cons c chunks ih =>
    rw [List.length_cons] at h
    rw [setChunks, ih fun j hLe hLt => h j (by omega) (by omega), Db.set,
      Function.update_of_ne (h i (by omega) (by omega))]

theorem setChunks_chunk {chunks : List Bytes} {i : Nat} (db : Db)
    (hFits : i + chunks.length ≤ 2 ^ 32) {j : Nat} (hj : j < chunks.length) :
    setChunks layer ns key i chunks db (chunkKey layer ns key (i + j)) = chunks[j]? := by
  induction chunks generalizing i j db with
  | nil => exact absurd hj j.not_lt_zero
  | cons c chunks ih =>
    rw [List.length_cons] at hFits hj
    rw [setChunks]
    cases j with
    | zero =>
      rw [setChunks_other, Nat.add_zero, Db.set, Function.update_self, List.getElem?_cons_zero]
      intro j' hLe hLt h
      have hIdx := (chunkKey_inj (by omega) (by omega) h).2
      omega
    | succ j =>
      rw [List.getElem?_cons_succ, ← ih (i := i + 1) _ (by omega) (by omega)]
      congr 2
      omega

end Cells

/-- The chunks of a value. -/
def chunksOf (value : Bytes) : List Bytes := splitBytes value maxValueBytes (by decide)

/-- The count of the value's chunks can be stored, as for every value within the limit of
FoundationDB on a transaction. -/
def Fits (value : Bytes) : Prop := value.length ≤ maxValueBytes * (2 ^ 32 - 1)

theorem Fits.length_chunksOf {value : Bytes} (h : Fits value) :
    (chunksOf value).length < 2 ^ 32 := by
  have hMul : (chunksOf value).length * maxValueBytes < value.length + maxValueBytes :=
    length_splitBytes_mul value
  unfold Fits maxValueBytes at h
  unfold maxValueBytes at hMul
  omega

/-- The cells hold the map: the count of each value beside its chunks, and no other chunk. -/
structure Represents {E : Type} (layer : TupleLayer E) (db : Db) (m : KvMap E) : Prop where
  count : ∀ ns key, db (metaKey layer ns key) =
    (m (ns, key)).map fun value => putUint32 (chunksOf value).length
  chunk : ∀ ns key i, i < 2 ^ 32 → db (chunkKey layer ns key i) =
    ((m (ns, key)).elim [] chunksOf)[i]?
  fits : ∀ ns key value, m (ns, key) = some value → Fits value

section Represents

variable {E : Type} {layer : TupleLayer E} {db : Db} {m : KvMap E} {ns : String}
  {key : List E}

theorem represents_empty : Represents layer .empty (fun _ => none : KvMap E) :=
  ⟨fun _ _ => rfl, fun _ _ _ _ => rfl, nofun⟩

/-- The chunks of a value, read one after another, are the value. -/
theorem flatMap_chunksOf (value : Bytes) :
    (List.range (chunksOf value).length).flatMap (fun i => (chunksOf value)[i]?.getD []) =
      value := by
  have hMap : (List.range (chunksOf value).length).map (fun i => (chunksOf value)[i]?.getD []) =
      chunksOf value := by
    refine List.ext_getElem (by simp) fun i hi _ => ?_
    simp only [List.length_map, List.length_range] at hi
    simp [hi]
  rw [List.flatMap_def, hMap]
  exact splitBytes_flatten value

theorem Represents.get (h : Represents layer db m) :
    get layer ns key db = some ((m (ns, key)).filter fun value => value ≠ []) := by
  have hCount := h.count ns key
  have hChunk := h.chunk ns key
  cases hm : m (ns, key) with
  | none =>
    rw [hm, Option.map_none] at hCount
    simp [Kv.get, hCount]
  | some value =>
    have hLength := (h.fits ns key value hm).length_chunksOf
    rw [hm, Option.map_some] at hCount
    rw [hm] at hChunk
    have hFlatten : (chunksOf value).flatten = value := splitBytes_flatten value
    have hRead : (List.range (chunksOf value).length).flatMap
        (fun i => (db (chunkKey layer ns key i)).getD []) = value := by
      refine Eq.trans (List.flatMap_congr fun i hi => ?_) (flatMap_chunksOf value)
      rw [hChunk i ((List.mem_range.mp hi).trans hLength)]
      rfl
    have hFilter : ((some value).filter fun value => value ≠ []) =
        if value = [] then none else some value := by
      by_cases hEmpty : value = [] <;> simp [Option.filter, hEmpty]
    simp only [Kv.get, hCount, uint32_putUint32 hLength, Option.bind_eq_bind, Option.bind_some,
      hRead, hFilter]
    by_cases hOne : (chunksOf value).length = 1
    · obtain ⟨c, hc⟩ := List.length_eq_one_iff.mp hOne
      have hValue : c = value := by simpa [hc] using hFlatten
      have hNonempty : value ≠ [] := by
        rintro rfl
        simp [chunksOf] at hOne
      have hFirst : db (chunkKey layer ns key 0) = some value := by
        rw [hChunk 0 (by decide), Option.elim_some, hc, hValue]
        rfl
      rw [if_pos hOne, if_neg hNonempty, hFirst]
      rfl
    · rw [if_neg hOne]
      rfl

variable [DecidableEq E]

/-- A change of the cells of one key changes the map at that key. -/
theorem Represents.update (h : Represents layer db m) {db' : Db} {record : Option Bytes}
    (hOther : ∀ k, k ≠ metaKey layer ns key → (∀ i < 2 ^ 32, k ≠ chunkKey layer ns key i) →
      db' k = db k)
    (hCount : db' (metaKey layer ns key) =
      record.map fun value => putUint32 (chunksOf value).length)
    (hChunk : ∀ i < 2 ^ 32, db' (chunkKey layer ns key i) = (record.elim [] chunksOf)[i]?)
    (hFits : ∀ value, record = some value → Fits value) :
    Represents layer db' (Function.update m (ns, key) record) := by
  constructor
  · intro ns' key'
    by_cases hk : (ns', key') = (ns, key)
    · cases hk
      rw [Function.update_self, hCount]
    · rw [Function.update_of_ne hk, ← h.count]
      refine hOther _ (fun hEq => hk ?_) fun i _ => metaKey_ne_chunkKey i
      obtain ⟨rfl, rfl⟩ := metaKey_inj hEq
      rfl
  · intro ns' key' i hi
    by_cases hk : (ns', key') = (ns, key)
    · cases hk
      rw [Function.update_self, hChunk i hi]
    · rw [Function.update_of_ne hk, ← h.chunk ns' key' i hi]
      refine hOther _ (metaKey_ne_chunkKey i).symm fun j hj hEq => hk ?_
      obtain ⟨⟨rfl, rfl⟩, _⟩ := chunkKey_inj hi hj hEq
      rfl
  · intro ns' key' value hValue
    by_cases hk : (ns', key') = (ns, key)
    · rw [hk, Function.update_self] at hValue
      exact hFits value hValue
    · rw [Function.update_of_ne hk] at hValue
      exact h.fits ns' key' value hValue

theorem Represents.clearAll (h : Represents layer db m) (ns : String) (key : List E) :
    ∃ db', clearAll layer ns key db = some db' ∧
      Represents layer db' (Function.update m (ns, key) none) := by
  have hCount := h.count ns key
  have hChunk := h.chunk ns key
  cases hm : m (ns, key) with
  | none =>
    rw [hm, Option.map_none] at hCount
    rw [hm] at hChunk
    exact ⟨db, by simp [Kv.clearAll, hCount], h.update (fun _ _ _ => rfl) hCount hChunk nofun⟩
  | some value =>
    have hLength := (h.fits ns key value hm).length_chunksOf
    rw [hm, Option.map_some] at hCount
    rw [hm] at hChunk
    refine ⟨Kv.clearChunks layer ns key (chunksOf value).length (db.clear (metaKey layer ns key)),
      by simp [Kv.clearAll, hCount, uint32_putUint32 hLength], ?_⟩
    refine h.update (fun k hMeta hChunks => ?_) ?_ (fun i hi => ?_) nofun
    · rw [clearChunks_other fun i hi => hChunks i (by omega), Db.clear,
        Function.update_of_ne hMeta]
    · rw [clearChunks_other fun i _ => metaKey_ne_chunkKey i, Db.clear, Function.update_self]
      rfl
    · by_cases hLast : i < (chunksOf value).length
      · exact clearChunks_chunk hLength.le hLast
      · rw [clearChunks_other, Db.clear, Function.update_of_ne (metaKey_ne_chunkKey i).symm,
          hChunk i hi]
        · exact List.getElem?_eq_none (by simpa using hLast)
        · intro j hj hEq
          have hIdx := (chunkKey_inj hi (by omega) hEq).2
          omega

theorem Represents.set (h : Represents layer db m) (ns : String) (key : List E) {value : Bytes}
    (hFits : Fits value) :
    ∃ db', set layer ns key value db = some db' ∧
      Represents layer db' (Function.update m (ns, key) (some value)) := by
  obtain ⟨cleared, hCleared, hRep⟩ := h.clearAll ns key
  have hLength := hFits.length_chunksOf
  have hChunk := hRep.chunk ns key
  rw [Function.update_self] at hChunk
  refine ⟨setChunks layer ns key 0 (chunksOf value)
    (setMeta layer ns key (chunksOf value).length cleared),
    by simp [Kv.set, hCleared, chunksOf], ?_⟩
  rw [← Function.update_idem (a := (ns, key)) none (some value) m]
  refine hRep.update (fun k hMeta hChunks => ?_) ?_ (fun i hi => ?_) ?_
  · rw [setChunks_other fun i _ hi => hChunks i (by omega), setMeta, Db.set,
      Function.update_of_ne hMeta]
  · rw [setChunks_other fun i _ _ => metaKey_ne_chunkKey i, setMeta, Db.set, Function.update_self]
    rfl
  · by_cases hLast : i < (chunksOf value).length
    · have hSet := @setChunks_chunk E layer ns key (chunksOf value) 0
        (setMeta layer ns key (chunksOf value).length cleared) (by omega) i hLast
      rwa [Nat.zero_add] at hSet
    · rw [setChunks_other, setMeta, Db.set, Function.update_of_ne (metaKey_ne_chunkKey i).symm,
        hChunk i hi]
      · exact (List.getElem?_eq_none (by simpa using hLast)).symm
      · intro j _ hj hEq
        have hIdx := (chunkKey_inj hi (by omega) hEq).2
        omega
  · rintro _ ⟨⟩
    exact hFits

end Represents

section Service

variable {E : Type} [DecidableEq E] {layer : TupleLayer E}

/-- The values that a call stores fit. -/
def KvCall.Fits {E : Type} : KvCall E → Prop
  | .set _ _ value => Kv.Fits value
  | _ => True

theorem kvSvc_simulates :
    (kvSvc layer).Simulates KvCall.Fits (Represents layer) (mapSvc (E := E)) := by
  rintro db m (⟨ns, key, value⟩ | ⟨ns, key⟩ | ⟨ns, key⟩) o m' hFits hRep hCall <;> cases hCall
  · obtain ⟨db', hSet, hRep'⟩ := hRep.set ns key hFits
    exact ⟨db', by simp [kvSvc, hSet], hRep'⟩
  · obtain ⟨db', hDelete, hRep'⟩ := hRep.clearAll ns key
    exact ⟨db', by simp [kvSvc, delete, hDelete], hRep'⟩
  · exact ⟨db, by simp [kvSvc, hRep.get], hRep⟩

theorem mapSvc_total (m : KvMap E) (calls : List (KvCall E)) :
    ∃ answers m', mapSvc.serve m calls = some (answers, m') := by
  induction calls generalizing m with
  | nil => exact ⟨[], m, rfl⟩
  | cons c calls ih =>
    obtain ⟨o, m', hCall⟩ : ∃ o m', mapSvc.call m c = some (o, m') := by
      cases c <;> exact ⟨_, _, rfl⟩
    obtain ⟨answers, m'', hServe⟩ := ih m'
    exact ⟨o :: answers, m'', Service.serve_cons hCall hServe⟩

/-- From the empty database, the service answers every sequence of calls as a map does, and no
panic occurs.  The chunks that are then in the database are those of the values in the map: none of
an earlier value lingers. -/
theorem kvSvc_refines_map {calls : List (KvCall E)} (hFits : ∀ c ∈ calls, c.Fits) :
    ∃ answers m db, mapSvc.serve (fun _ => none) calls = some (answers, m) ∧
      (kvSvc layer).serve .empty calls = some (answers, db) ∧
      ∀ ns key i, i < 2 ^ 32 →
        db (chunkKey layer ns key i) = ((m (ns, key)).elim [] chunksOf)[i]? := by
  obtain ⟨answers, m, hMap⟩ := mapSvc_total (fun _ => none) calls
  obtain ⟨db, hServe, hRep⟩ := kvSvc_simulates.serve hFits represents_empty hMap
  exact ⟨answers, m, db, hMap, hServe, hRep.chunk⟩

end Service

def longValue : Bytes := List.replicate 200000 1

/-- A value of three chunks, replaced by a short one, beside a key that the first is a part of. -/
def shrinking : List (KvCall Element) :=
  [.set "chunk" [.string "5"] longValue,
    .set "chunk" [.string "5", .string "transcript"] [2],
    .set "chunk" [.string "5"] [3],
    .get "chunk" [.string "5"],
    .delete "chunk" [.string "5"],
    .get "chunk" [.string "5"],
    .get "chunk" [.string "5", .string "transcript"]]

theorem shrinking_fits : ∀ c ∈ shrinking, c.Fits := by
  have hLong : longValue.length = 200000 := List.length_replicate
  simp [shrinking, KvCall.Fits, Fits, maxValueBytes, hLong]

theorem kvSvc_refines_map_shrinking :
    ∃ answers m db, mapSvc.serve (fun _ => none) shrinking = some (answers, m) ∧
      answers = [none, none, none, some [3], none, none, some [2]] ∧
      (kvSvc fdbTuples).serve .empty shrinking = some (answers, db) ∧
      ∀ ns key i, i < 2 ^ 32 →
        db (chunkKey fdbTuples ns key i) = ((m (ns, key)).elim [] chunksOf)[i]? := by
  obtain ⟨answers, m, db, hMap, hServe, hChunk⟩ :=
    @kvSvc_refines_map Element _ fdbTuples shrinking shrinking_fits
  have hAnswers : (mapSvc.serve (fun _ => none) shrinking).map Prod.fst =
      some [none, none, none, some [3], none, none, some [2]] := rfl
  rw [hMap] at hAnswers
  exact ⟨answers, m, db, hMap, Option.some.inj hAnswers, hServe, hChunk⟩

end Richter.Kv
