import KeyProtection.System

/-! A stand-in for the third-party code that satisfies every law asked of it, so that the
laws are consistent and runs of the model can be evaluated. Keys are 32 bytes that are
their own public half, an exchange adds them bytewise, and the HPKE tag is a 16-byte digest
of the two keys and the context. On the one suite the services use, the encoding is the
protobuf one; the UUID parser reads the canonical form. -/
namespace KeyProtection.Standin

def pad32 (bytes : Bytes) : Bytes := (bytes ++ List.replicate 32 0).take 32

def digest (bytes : Bytes) : Nat := bytes.foldl (fun sum byte => (sum * 257 + byte.toNat + 1) % 2^128) 0

def tag (bytes : Bytes) : Bytes := (List.range 16).map (fun i => UInt8.ofNat (digest bytes / 256^i))

def bssl : Bssl where
  generateKeypair entropy := (pad32 entropy,pad32 entropy)
  toPublic sk := sk
  computeSharedKey a b :=
    let sum := List.zipWith (fun x y => x + y) a b
    if sum.all (fun byte => byte == 0) then none else some sum
  extract ikm _ := ikm.drop (ikm.length - 32)
  expandInto prk _ len := some ((prk ++ List.replicate len 0).take len)
  senderContext entropy publicKey _ := some (pad32 entropy ++ publicKey,pad32 entropy)
  sealWith context plaintext aad := plaintext ++ tag (context ++ aad)
  recipientContext privateKey enc _ := some (enc ++ privateKey)
  openWith context ciphertext aad :=
    let plaintext := ciphertext.take (ciphertext.length - 16)
    if ciphertext = plaintext ++ tag (context ++ aad) then some plaintext else none

theorem padSize (bytes : Bytes) : (pad32 bytes).length = 32 := by simp [pad32]

theorem tagSize (bytes : Bytes) : (tag bytes).length = 16 := by simp [tag]

theorem bsslLawful : bssl.Lawful where
  pairMatches _ := rfl
  privateSize entropy := padSize entropy
  publicSize _ size := size
  exchange a b _ _ := by
    have sums : List.zipWith (fun x y : UInt8 => x + y) a b = List.zipWith (fun x y => x + y) b a :=
      List.zipWith_comm_of_comm (fun x y => UInt8.add_comm x y)
    simp only [bssl,sums]
  expands prk info := ⟨_,rfl,by simp⟩
  sealOpens sk size entropy plaintext aad := by
    refine ⟨pad32 entropy ++ sk,pad32 entropy,rfl,padSize entropy,?_,pad32 entropy ++ sk,rfl,?_⟩
    · simp [bssl,tagSize]
    · simp [bssl,tagSize]

theorem bsslSized : bssl.Sized where
  encSize := by
    intro entropy publicKey info context enc sent
    cases Option.some.inj sent
    exact padSize entropy
  tagSize context plaintext aad := by simp [bssl,tagSize]

def toNat32 (n : Int32) : Nat := n.toBitVec.toNat

def word (n : Int32) : Bytes :=
  [UInt8.ofNat (toNat32 n / 16777216),UInt8.ofNat (toNat32 n / 65536),UInt8.ofNat (toNat32 n / 256),UInt8.ofNat (toNat32 n)]

def ofWord (a b c d : UInt8) : Int32 :=
  .ofBitVec (BitVec.ofNat 32 (a.toNat * 16777216 + b.toNat * 65536 + c.toNat * 256 + d.toNat))

theorem ofWordWord (n : Int32) : ofWord (UInt8.ofNat (toNat32 n / 16777216)) (UInt8.ofNat (toNat32 n / 65536))
    (UInt8.ofNat (toNat32 n / 256)) (UInt8.ofNat (toNat32 n)) = n := by
  have bound : toNat32 n < 2^32 := n.toBitVec.isLt
  have sum : toNat32 n / 16777216 % 2^8 * 16777216 + toNat32 n / 65536 % 2^8 * 65536 +
      toNat32 n / 256 % 2^8 * 256 + toNat32 n % 2^8 = toNat32 n := by omega
  unfold ofWord
  simp only [UInt8.toNat_ofNat',sum]
  unfold toNat32
  simp

def marshal (a : HpkeAlgorithm) : Bytes :=
  if a = ⟨0,0,0⟩ then [] else if a = ⟨1,1,1⟩ then [8,1,16,1,24,1] else word a.kem ++ word a.kdf ++ word a.aead

def decode (bytes : Bytes) : Except String HpkeAlgorithm :=
  if bytes = [] then .ok ⟨0,0,0⟩
  else if bytes = [8,1,16,1,24,1] then .ok ⟨1,1,1⟩
  else match bytes with
    | [a,b,c,d,e,f,g,h,i,j,k,l] => .ok ⟨ofWord a b c d,ofWord e f g h,ofWord i j k l⟩
    | _ => .error "invalid wire format"

theorem decodesMarshal (a : HpkeAlgorithm) : decode (marshal a) = .ok a := by
  unfold marshal
  split
  · rename_i same
    exact same ▸ rfl
  split
  · rename_i same
    exact same ▸ rfl
  · simp [word,decode,ofWordWord]

def hexValue (c : Char) : Nat := "0123456789abcdef".toList.idxOf c

def readHex (digits : List Char) : Nat := digits.foldl (fun n c => n * 16 + hexValue c) 0

def parse (s : String) : Except String Uuid :=
  let id : Uuid := BitVec.ofNat 128 (readHex (s.toList.filter (fun c => c ≠ '-')))
  if uuidString id = s then .ok id else .error "invalid UUID format"

theorem hexValueDigit {n : Nat} (small : n < 16) : hexValue (hexDigit n) = n := by
  have all : ∀ n : Fin 16, hexValue (hexDigit n.val) = n.val := by decide +kernel
  exact all ⟨n,small⟩

theorem hexDigitDash (n : Nat) : hexDigit n ≠ '-' := by
  have all : ∀ n : Fin 16, hexDigit n.val ≠ '-' := by decide +kernel
  by_cases small : n < 16
  · exact all ⟨n,small⟩
  · have size : "0123456789abcdef".toList.length ≤ n := by
      have length : "0123456789abcdef".toList.length = 16 := by decide +kernel
      omega
    rw [hexDigit,List.getD_eq_getElem?_getD,List.getElem?_eq_none size]
    decide

theorem readHexDigits (w n : Nat) :
    readHex ((List.range w).map (fun i => hexDigit (n / 16 ^ (w - 1 - i) % 16))) = n % 16 ^ w := by
  induction w generalizing n with
  | zero => simp [readHex,Nat.mod_one]
  | succ w ih =>
    have front : (List.range w).map (fun i => hexDigit (n / 16 ^ (w + 1 - 1 - i) % 16)) =
        (List.range w).map (fun i => hexDigit (n / 16 / 16 ^ (w - 1 - i) % 16)) := by
      refine List.map_congr_left (fun i mem => ?_)
      have bound : i < w := List.mem_range.mp mem
      have shift : w + 1 - 1 - i = w - 1 - i + 1 := by omega
      rw [shift,Nat.pow_succ',Nat.div_div_eq_div_mul]
    have last : hexValue (hexDigit (n / 16 ^ (w + 1 - 1 - w) % 16)) = n % 16 := by
      simp [hexValueDigit (Nat.mod_lt n (show 0 < 16 by decide))]
    have high := ih (n / 16)
    unfold readHex at high ⊢
    rw [List.range_succ,List.map_append,List.foldl_append,front,high,List.map_singleton,List.foldl_cons,
      List.foldl_nil,last,Nat.pow_succ,Nat.mul_comm (16 ^ w) 16,Nat.mod_mul]
    omega

theorem dashesOut (id : Uuid) : (uuidChars id).filter (fun c => c ≠ '-') = uuidDigits id := by
  have kept : ∀ part : List Char, part ⊆ uuidDigits id → part.filter (fun c => c ≠ '-') = part := by
    intro part inside
    refine List.filter_eq_self.mpr (fun c mem => ?_)
    obtain ⟨n,_,same⟩ := List.mem_map.mp (inside mem)
    simp [← same,hexDigitDash]
  have whole : (uuidDigits id).take 8 ++ ((uuidDigits id).drop 8).take 4 ++ ((uuidDigits id).drop 12).take 4 ++
      ((uuidDigits id).drop 16).take 4 ++ (uuidDigits id).drop 20 = uuidDigits id := by
    rw [← List.take_add,← List.take_add,← List.take_add,List.take_append_drop]
  simp only [uuidChars,List.filter_append,
    kept _ (List.take_subset _ _),kept _ (List.drop_subset _ _),
    kept _ (List.Subset.trans (List.take_subset _ _) (List.drop_subset _ _))]
  simpa using whole

theorem parsesString (id : Uuid) : parse (uuidString id) = .ok id := by
  have digits : readHex (uuidDigits id) = id.toNat := by
    rw [uuidDigits,readHexDigits 32]
    exact Nat.mod_eq_of_lt id.isLt
  have same : BitVec.ofNat 128 (readHex ((uuidString id).toList.filter (fun c => c ≠ '-'))) = id := by
    rw [uuidString,String.toList_ofList,dashesOut,digits,BitVec.ofNat_toNat,BitVec.setWidth_eq]
  simp only [parse,same,if_true]

def externals : Externals where
  bssl := bssl
  marshal := marshal
  decode := decode
  parse := parse
  violation fields := "validation errors: " ++ ", ".intercalate fields
  printable c := 32 ≤ c.toNat && c.toNat < 127

theorem lawful : externals.Lawful where
  bssl := bsslLawful
  decodes := by
    simp only [externals]
    exact decodesMarshal
  emptyOnDefault a := by
    simp only [externals,marshal]
    split
    · rename_i same
      simp [same]
    split
    · rename_i same
      simp [same]
    · rename_i other _
      simp [word,other]
  bounded a := by
    simp only [externals,marshal]
    split
    · simp
    split <;> simp [word]
  parses := by
    simp only [externals]
    exact parsesString

/-! A service in emulated mode over the stand-in, and its usual request. -/

def setup : Setup := ⟨externals,.vmEmulated,.vmEmulated,1000000000,60000000000⟩

def start : System := System.initial 0 0 "boot-0"

def onward (s : System) (ls : List Label) : System := (Lib.Run.exec (step setup) s ls).getD s

def after (ls : List Label) : System := onward start ls

theorem onwardSteps {s : System} {ls : List Label} (enabled : (Lib.Run.exec (step setup) s ls).isSome) :
    Lib.Run.Steps (step setup) s ls (onward s ls) := Lib.Run.stepsGetD enabled

theorem onwardStep {s : System} {l : Label} (enabled : (step setup s l).isSome) :
    step setup s l = some (onward s [l]) := by
  obtain ⟨next,taken⟩ := Option.isSome_iff_exists.mp enabled
  simp only [onward,Lib.Run.exec,taken,Option.bind_some,Option.getD_some]

theorem onwardReachable {s : System} {ls : List Label} (reach : Reachable setup s)
    (enabled : (Lib.Run.exec (step setup) s ls).isSome) : Reachable setup (onward s ls) := by
  obtain ⟨kpsNow,wsNow,token,given,run⟩ := reach
  exact ⟨kpsNow,wsNow,token,given,Lib.Run.reachableAlong run (onwardSteps enabled)⟩

theorem afterReachable (ls : List Label) (enabled : (Lib.Run.exec (step setup) start ls).isSome) :
    Reachable setup (after ls) := ⟨0,0,"boot-0",by decide,ls,onwardSteps enabled⟩

def entropy (n : Nat) : Entropy := ⟨BitVec.ofNat 128 n,[UInt8.ofNat n],true⟩

def generateRequest : Request := .generateKey (.ok ⟨some ⟨"kem",some 1⟩,3600⟩)

def decapsRequest (handle : Uuid) (ciphertext : Bytes) : Request :=
  .decaps (.ok ⟨some (uuidString handle),some ⟨1,ciphertext⟩⟩)

def destroyRequest (handle : Uuid) : Request := .destroy (.ok ⟨some (uuidString handle)⟩)

def generating (i b k : Nat) : List Label :=
  [.arrive generateRequest,.advance i (entropy b),.serve i (entropy k),.receive i,.advance i (entropy 0),
    .advance i (entropy 0)]

def heartbeat : List Label := [.beat .begins,.beat .kpsAnswers,.beat .receives,.beat .returns]

def heartbeatPurging : List Label :=
  [.beat .begins,.beat .kpsAnswers,.beat .receives,.beat .locks,.beat .destroysAll,.beat .resets]

end KeyProtection.Standin
