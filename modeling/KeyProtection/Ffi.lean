import KeyProtection.Errors
import KeyProtection.KeyTypes

/-! The boundary between the Go services and the Rust custody cores: how a Rust result
becomes a status, how a status becomes a Go error, and the third-party functions both
sides call. A pointer with its length is an optional byte string; a null pointer is
`none`. A 16-byte UUID buffer is held as the UUID it spells. -/
namespace KeyProtection

/- km_common::ffi_call: a caught panic is reported as an internal error. -/
def ffiCall : Rust Unit → Status
  | .ok _ => .success
  | .error (.err status) => status
  | .error .panic => .internalError

theorem ffiCallFault {fault : Fault} (honest : fault ≠ .err .success) : ffiCall (.error fault) ≠ .success := by
  cases fault with
  | err status => exact fun same => honest (congrArg Fault.err same)
  | panic => decide

/- A Go call ends with a value, with an error, or by a runtime panic. -/
inductive GoFault where
  | error (err : GoError)
  | panic
  deriving DecidableEq, Repr

abbrev Go := Except GoFault

def failed {α : Type} (err : GoError) : Go α := .error (.error err)

/- Library code outside the repository. `marshal` and `decode` are the protobuf encoding
of HpkeAlgorithm, the same wire format in prost and in the Go library; `parse` is
uuid.Parse, `violation` the text of a protovalidate error on the named fields, `printable`
the Unicode tables of strconv.IsPrint. The error texts of a failed decoding or parse are
the libraries' own. -/
structure Externals where
  bssl : Bssl
  marshal : HpkeAlgorithm → Bytes
  decode : Bytes → Except String HpkeAlgorithm
  parse : String → Except String Uuid
  violation : List String → String
  printable : Char → Bool

def hexDigit (n : Nat) : Char := "0123456789abcdef".toList.getD n '0'

def uuidDigits (u : Uuid) : List Char :=
  (List.range 32).map (fun i => hexDigit (u.toNat / 16 ^ (31 - i) % 16))

def uuidChars (u : Uuid) : List Char :=
  let d := uuidDigits u
  d.take 8 ++ ['-'] ++ (d.drop 8).take 4 ++ ['-'] ++ (d.drop 12).take 4 ++ ['-'] ++
    (d.drop 16).take 4 ++ ['-'] ++ d.drop 20

def uuidString (u : Uuid) : String := String.ofList (uuidChars u)

structure Externals.Lawful (x : Externals) : Prop where
  bssl : x.bssl.Lawful
  decodes : ∀ a, x.decode (x.marshal a) = .ok a
  emptyOnDefault : ∀ a, x.marshal a = [] ↔ a = ⟨0,0,0⟩
  bounded : ∀ a, (x.marshal a).length ≤ 33
  parses : ∀ u, x.parse (uuidString u) = .ok u

structure KeypairOut where
  status : Status
  keys : KeyRegistry
  outUuid : Option Uuid
  outPubkey : Option Bytes

/- What a key generation can do with the registry and the caller's buffers, `makes` saying
when it creates a record. The length of the public key buffer is compared after the record
has been stored, so a call may fail and leave its key behind. -/
inductive Issued (keys : KeyRegistry) (outUuid : Option Uuid) (outPubkey : Option Bytes)
    (makes : KeyRecord → PublicKey → Prop) : KeypairOut → Prop where
  | refused {status} (failure : status ≠ .success) (unmade : ∀ record pubKey, ¬ makes record pubKey) :
      Issued keys outUuid outPubkey makes ⟨status,keys,outUuid,outPubkey⟩
  | stored {record pubKey slice} (made : makes record pubKey) (buffer : outPubkey = some slice)
      (fits : slice.length = 32) :
      Issued keys outUuid outPubkey makes
        ⟨.success,KeyRegistry.addKey keys record,some record.id,some pubKey.bytes⟩
  | stranded {record pubKey slice} (made : makes record pubKey) (buffer : outPubkey = some slice)
      (size : slice.length ≠ 32) :
      Issued keys outUuid outPubkey makes ⟨.invalidArgument,KeyRegistry.addKey keys record,outUuid,outPubkey⟩

/- key_manager_destroy_kem_key and key_manager_destroy_binding_key. Unlike the reads, a
removal does not look at the deadline. -/
def destroyByUuid (keys : KeyRegistry) (uuidBytes : Option Uuid) : Status × KeyRegistry :=
  match uuidBytes with
  | none => (.invalidArgument,keys)
  | some uuid =>
    match KeyRegistry.removeKey keys uuid with
    | (some _,keys') => (.success,keys')
    | (none,keys') => (.notFound,keys')

theorem destroyedByUuid (keys : KeyRegistry) (uuid : Uuid) :
    destroyByUuid keys (some uuid) =
      (if (keys.lookup uuid).isSome then .success else .notFound,keys.erase uuid) := by
  simp only [destroyByUuid,KeyRegistry.removeKey]
  cases keys.lookup uuid <;> rfl

def maxAlgorithmLen : Nat := 128
def maxPublicKeyLen : Nat := 2048

/- buf[:n] in Go panics on a bound past the end. -/
def sliceTo {α : Type} (buf : List α) (n : Nat) : Go (List α) :=
  if n ≤ buf.length then .ok (buf.take n) else .error .panic

theorem sliceToLeft {α : Type} (front back : List α) : sliceTo (front ++ back) front.length = .ok front := by
  simp [sliceTo]

/-! The two enumerations, which differ only in the entry that one key fills. -/

/- array[..bytes.len()].copy_from_slice(bytes) -/
def copyInto (array bytes : Bytes) : Bytes := bytes ++ array.drop bytes.length

/- saturating_duration_since(now).as_secs() -/
def remainingSecs (deleteAfter now : Nat) : Nat := (deleteAfter - now) / nanosPerSec

section Enumerate
variable {ε : Type} (fill : KeyMetadata → Nat → Rust ε)

/- The zipped loop; `readings n` is the clock reading of its n-th turn. Entries written
before an error stay written. -/
def fillEntries (readings : Nat → Nat) : List ε → List KeyMetadata → Rust Unit × List ε
  | entry::entries, info::metas =>
    match fill info (readings 0) with
    | .error fault => (.error fault,entry::entries)
    | .ok filled =>
      let rest := fillEntries (fun n => readings (n+1)) entries metas
      (rest.1,filled::rest.2)
  | entries, _ => (.ok (),entries)

/- usize arithmetic is modulo 2^64. -/
def enumerateInternal (keys : KeyRegistry) (now : Nat) (readings : Nat → Nat) (entries : List ε) (offset : Nat) :
    Rust (Nat × Bool) × List ε :=
  let (metas,totalCount) := KeyRegistry.listAllKeys keys now offset entries.length
  let count := metas.length
  let hasMore := decide ((offset + count) % 2^64 < totalCount)
  let filled := fillEntries fill readings entries metas
  (filled.1.map (fun _ => (count,hasMore)),filled.2)

structure EnumerateOut (ε : Type) where
  result : Int
  outEntries : Option (List ε)
  outHasMore : Option Bool

/- ffi_call_i32: a count cast to i32, or the negated status. -/
def keyManagerEnumerate (keys : KeyRegistry) (now : Nat) (readings : Nat → Nat) (outEntries : Option (List ε))
    (offset : Nat) (outHasMore : Option Bool) : EnumerateOut ε :=
  match outEntries with
  | none => ⟨-(Status.invalidArgument.code : Int),none,outHasMore⟩
  | some entries =>
    match enumerateInternal fill keys now readings entries offset with
    | (.error fault,entries') => ⟨-((ffiCall (.error fault)).code : Int),some entries',outHasMore⟩
    | (.ok (count,hasMore),entries') =>
      ⟨(BitVec.ofNat 32 count).toInt,some entries',outHasMore.map (fun _ => hasMore)⟩

variable {fill}

theorem fillEntriesOk {f : KeyMetadata → Nat → ε} (readings : Nat → Nat) {entries : List ε} {metas : List KeyMetadata}
    (fills : ∀ info ∈ metas, ∀ now, fill info now = .ok (f info now)) (room : metas.length ≤ entries.length) :
    fillEntries fill readings entries metas =
      (.ok (),metas.mapIdx (fun i info => f info (readings i)) ++ entries.drop metas.length) := by
  induction metas generalizing entries readings with
  | nil => cases entries <;> simp [fillEntries]
  | cons info metas ih =>
    cases entries with
    | nil => simp at room
    | cons entry entries =>
      have rest := ih (fun n => readings (n+1)) (fun other mem => fills other (List.mem_cons_of_mem _ mem))
        (Nat.le_of_succ_le_succ room)
      simp only [fillEntries,fills info List.mem_cons_self (readings 0),rest,List.mapIdx_cons,List.cons_append,
        List.length_cons,List.drop_succ_cons]

def pageOf (keys : KeyRegistry) (now offset limit : Nat) : List KeyMetadata :=
  (KeyRegistry.listAllKeys keys now offset limit).1

theorem pageLength (keys : KeyRegistry) (now offset limit : Nat) :
    (pageOf keys now offset limit).length = min limit ((KeyRegistry.sortedLive keys now).length - offset) := by
  simp [pageOf,KeyRegistry.listAllKeys]

/- The i32 that an enumeration returns can hold a count of the live keys. Each of them has a
memfd_secret mapping of its own (Vault::new), of which a process cannot have so many. -/
def FewLive (keys : KeyRegistry) (now : Nat) : Prop := (KeyRegistry.sortedLive keys now).length < 2^31

theorem countFits {count : Nat} (small : count < 2^31) : (BitVec.ofNat 32 count).toInt = count := by
  rw [BitVec.toInt_eq_toNat_cond,BitVec.toNat_ofNat]
  split <;> omega

theorem pageFits {keys : KeyRegistry} {now limit : Nat} (few : FewLive keys now ∨ limit < 2^31) (offset : Nat) :
    (BitVec.ofNat 32 (pageOf keys now offset limit).length).toInt = (pageOf keys now offset limit).length := by
  have size := pageLength keys now offset limit
  refine countFits ?_
  rcases few with few | short
  · have live : (KeyRegistry.sortedLive keys now).length < 2^31 := few
    omega
  · omega

theorem enumeratesInternal {f : KeyMetadata → Nat → ε} {keys : KeyRegistry} {now : Nat} (readings : Nat → Nat)
    (entries : List ε) (offset : Nat)
    (fills : ∀ info ∈ pageOf keys now offset entries.length, ∀ now', fill info now' = .ok (f info now')) :
    enumerateInternal fill keys now readings entries offset =
      (.ok ((pageOf keys now offset entries.length).length,
          decide ((offset + (pageOf keys now offset entries.length).length) % 2^64 <
            (KeyRegistry.sortedLive keys now).length)),
        (pageOf keys now offset entries.length).mapIdx (fun i info => f info (readings i)) ++
          entries.drop (pageOf keys now offset entries.length).length) := by
  have room : (pageOf keys now offset entries.length).length ≤ entries.length := by
    rw [pageLength]
    exact Nat.min_le_left _ _
  have filled := fillEntriesOk readings fills room
  simp only [pageOf] at filled
  simp only [enumerateInternal,pageOf,filled]
  rfl

theorem enumerateCalled {f : KeyMetadata → Nat → ε} {keys : KeyRegistry} {now offset maxEntries : Nat}
    (readings : Nat → Nat)
    (fills : ∀ info ∈ pageOf keys now offset maxEntries, ∀ now', fill info now' = .ok (f info now'))
    {entries : List ε} (size : entries.length = maxEntries) (outHasMore : Option Bool) :
    keyManagerEnumerate fill keys now readings (some entries) offset outHasMore =
      ⟨(BitVec.ofNat 32 (pageOf keys now offset maxEntries).length).toInt,
        some ((pageOf keys now offset maxEntries).mapIdx (fun i info => f info (readings i)) ++
          entries.drop (pageOf keys now offset maxEntries).length),
        outHasMore.map (fun _ => decide ((offset + (pageOf keys now offset maxEntries).length) % 2^64 <
          (KeyRegistry.sortedLive keys now).length))⟩ := by
  subst size
  simp only [keyManagerEnumerate,enumeratesInternal readings entries offset fills]

theorem enumerateCounts {f : KeyMetadata → Nat → ε} {keys : KeyRegistry} {now offset : Nat} (readings : Nat → Nat)
    {entries : List ε}
    (fills : ∀ info ∈ pageOf keys now offset entries.length, ∀ now', fill info now' = .ok (f info now'))
    (outHasMore : Option Bool) :
    (keyManagerEnumerate fill keys now readings (some entries) offset outHasMore).result =
      (BitVec.ofNat 32 (pageOf keys now offset entries.length).length).toInt ∧
    (FewLive keys now ∨ entries.length < 2^31 →
      (keyManagerEnumerate fill keys now readings (some entries) offset outHasMore).result =
        (pageOf keys now offset entries.length).length ∧
      0 ≤ (keyManagerEnumerate fill keys now readings (some entries) offset outHasMore).result) := by
  rw [enumerateCalled readings fills rfl outHasMore]
  refine ⟨rfl,fun few => ?_⟩
  have counted := pageFits few offset
  exact ⟨counted,by simp only [counted,Int.natCast_nonneg]⟩

theorem fillEntriesLength (fill : KeyMetadata → Nat → Rust ε) (readings : Nat → Nat) (entries : List ε)
    (metas : List KeyMetadata) : (fillEntries fill readings entries metas).2.length = entries.length := by
  induction metas generalizing entries readings with
  | nil => cases entries <;> rfl
  | cons info metas ih =>
    cases entries with
    | nil => rfl
    | cons entry entries =>
      simp only [fillEntries]
      split
      · rfl
      · simp only [List.length_cons,ih]

theorem enumerateBounded (fill : KeyMetadata → Nat → Rust ε) (keys : KeyRegistry) (now : Nat)
    (readings : Nat → Nat) {entries : List ε} (word : entries.length < 2^31) (offset : Nat) (outHasMore : Option Bool) :
    (keyManagerEnumerate fill keys now readings (some entries) offset outHasMore).result.toNat ≤
      ((keyManagerEnumerate fill keys now readings (some entries) offset outHasMore).outEntries.getD []).length := by
  have size := pageLength keys now offset entries.length
  have kept := fillEntriesLength fill readings entries (pageOf keys now offset entries.length)
  simp only [pageOf] at size kept
  simp only [keyManagerEnumerate,enumerateInternal]
  generalize fillEntries fill readings entries (KeyRegistry.listAllKeys keys now offset entries.length).1 = out at kept ⊢
  obtain ⟨made,entries'⟩ := out
  cases made with
  | error fault =>
    simp only [Except.map]
    omega
  | ok done =>
    simp only [Except.map,BitVec.toInt_eq_toNat_cond,BitVec.toNat_ofNat,Option.getD_some] at kept ⊢
    split <;> omega

end Enumerate

end KeyProtection
