import KeyProtection.Isolation
import KeyProtection.Listing
import KeyProtection.Replay

/-! The context that binds a sealed secret to one decapsulation: a signed decimal number and
a UUID in its canonical form, with a separator that occurs in neither. It is read back
character by character, so no two pairs share a context; and since it is built from the
parsed UUID, the spelling of the handle does not enter it. -/
namespace KeyProtection
open Lib

/-! Decimal numbers. -/

def readDecimal (digits : List Char) : Nat := digits.foldl (fun n c => n * 10 + (c.toNat - 48)) 0

theorem readDecimalDigits (n : Nat) : readDecimal (Nat.toDigits 10 n) = n := by
  induction n using Nat.strongRecOn with
  | ind n ih =>
    rw [Nat.toDigits_eq_if (by decide)]
    split
    · rename_i small
      simp [readDecimal,Nat.toNat_digitChar_sub_48_of_lt_ten small]
    · rename_i large
      have last : (n % 10).digitChar.toNat - 48 = n % 10 :=
        Nat.toNat_digitChar_sub_48_of_lt_ten (Nat.mod_lt n (by decide))
      have front := ih (n / 10) (by omega)
      unfold readDecimal at front ⊢
      rw [List.foldl_append,front,List.foldl_cons,List.foldl_nil,last]
      omega

theorem digitsKnown {n : Nat} {c : Char} (mem : c ∈ Nat.toDigits 10 n) : c ≠ ':' ∧ c ≠ '-' ∧ c.toNat < 256 := by
  have digit : c.isDigit = true := Nat.isDigit_of_mem_toDigits (by decide) (by decide) mem
  refine ⟨fun same => ?_,fun same => ?_,?_⟩
  · rw [same] at digit
    contradiction
  · rw [same] at digit
    contradiction
  · have upper : c.toNat ≤ 57 := by
      simp only [Char.isDigit,Bool.and_eq_true,decide_eq_true_eq] at digit
      exact digit.2
    omega

theorem decimalString (n : Int) : (0 ≤ n ∧ (toString n).toList = Nat.toDigits 10 n.toNat) ∨
    (n < 0 ∧ (toString n).toList = '-' :: Nat.toDigits 10 (-n).toNat) := by
  rw [Int.toString_eq_repr,Int.repr_eq_if]
  split
  · rename_i positive
    exact .inl ⟨positive,Nat.toList_repr⟩
  · rename_i negative
    refine .inr ⟨by omega,?_⟩
    rw [String.toList_append,Nat.toList_repr]
    rfl

theorem decimalKnown {n : Int} {c : Char} (mem : c ∈ (toString n).toList) : c ≠ ':' ∧ c.toNat < 256 := by
  rcases decimalString n with ⟨_,same⟩ | ⟨_,same⟩
  · rw [same] at mem
    exact ⟨(digitsKnown mem).1,(digitsKnown mem).2.2⟩
  · rw [same] at mem
    rcases List.mem_cons.mp mem with sign | digit
    · rw [sign]
      decide
    · exact ⟨(digitsKnown digit).1,(digitsKnown digit).2.2⟩

theorem digitsInjective {m n : Nat} (same : Nat.toDigits 10 m = Nat.toDigits 10 n) : m = n := by
  rw [← readDecimalDigits m,same,readDecimalDigits]

theorem decimalInjective {m n : Int} (same : (toString m).toList = (toString n).toList) : m = n := by
  have unsigned : ∀ a b, Nat.toDigits 10 a ≠ '-' :: Nat.toDigits 10 b := by
    intro a b same
    exact (digitsKnown (same ▸ List.mem_cons_self)).2.1 rfl
  rcases decimalString m with ⟨left,leftSame⟩ | ⟨left,leftSame⟩
  · rcases decimalString n with ⟨right,rightSame⟩ | ⟨right,rightSame⟩
    · rw [leftSame,rightSame] at same
      have naturals := digitsInjective same
      omega
    · rw [leftSame,rightSame] at same
      exact absurd same (unsigned _ _)
  · rcases decimalString n with ⟨right,rightSame⟩ | ⟨right,rightSame⟩
    · rw [leftSame,rightSame] at same
      exact absurd same.symm (unsigned _ _)
    · rw [leftSame,rightSame] at same
      have naturals := digitsInjective (List.cons.inj same).2
      omega

/-! UUIDs. -/

/- Groups of 8, 4, 4, 4 and 12 lower-case digits with dashes between them. -/
def CanonicalUuid (s : String) : Prop :=
  s.toList.length = 36 ∧ ∃ groups : List (List Char), groups.map List.length = [8,4,4,4,12] ∧
    (∀ group ∈ groups, ∀ c ∈ group, c ∈ "0123456789abcdef".toList) ∧ s.toList = ['-'].intercalate groups

theorem uuidDigitsKnown {id : Uuid} {c : Char} (mem : c ∈ uuidDigits id) : c ∈ "0123456789abcdef".toList := by
  obtain ⟨n,_,same⟩ := List.mem_map.mp mem
  have all : ∀ n : Fin 16, hexDigit n.val ∈ "0123456789abcdef".toList := by decide +kernel
  rw [← same]
  exact all ⟨_,Nat.mod_lt _ (by decide)⟩

theorem uuidCanonical (id : Uuid) : CanonicalUuid (uuidString id) := by
  have size : (uuidDigits id).length = 32 := by simp [uuidDigits]
  rw [CanonicalUuid,uuidString,String.toList_ofList]
  refine ⟨by simp [uuidChars,size],[(uuidDigits id).take 8,((uuidDigits id).drop 8).take 4,
    ((uuidDigits id).drop 12).take 4,((uuidDigits id).drop 16).take 4,(uuidDigits id).drop 20],by simp [size],?_,?_⟩
  · intro group mem c inside
    refine @uuidDigitsKnown id c ?_
    simp only [List.mem_cons,List.not_mem_nil,or_false] at mem
    rcases mem with rfl | rfl | rfl | rfl | rfl
    · exact List.mem_of_mem_take inside
    · exact List.mem_of_mem_drop (List.mem_of_mem_take inside)
    · exact List.mem_of_mem_drop (List.mem_of_mem_take inside)
    · exact List.mem_of_mem_drop (List.mem_of_mem_take inside)
    · exact List.mem_of_mem_drop inside
  · simp [uuidChars,List.intercalate]

/-! The context. -/

theorem asciiInjective {left right : List Char} (narrowLeft : ∀ c ∈ left, c.toNat < 256)
    (narrowRight : ∀ c ∈ right, c.toNat < 256)
    (same : left.map (fun c => UInt8.ofNat c.toNat) = right.map (fun c => UInt8.ofNat c.toNat)) : left = right := by
  have back : ∀ text : List Char, (∀ c ∈ text, c.toNat < 256) →
      (text.map (fun c => UInt8.ofNat c.toNat)).map (fun byte => Char.ofNat byte.toNat) = text := by
    intro text narrow
    rw [List.map_map]
    refine (List.map_congr_left (fun c mem => ?_)).trans (List.map_id' _)
    simp only [Function.comp,UInt8.toNat_ofNat']
    rw [Nat.mod_eq_of_lt (show c.toNat < 2^8 from narrow c mem),Char.ofNat_toNat]
  rw [← back left narrowLeft,same,back right narrowRight]

theorem uuidKnown {id : Uuid} {c : Char} (mem : c ∈ uuidChars id) : c ≠ ':' ∧ c.toNat < 256 := by
  have all : "0123456789abcdef-".toList.all (fun c => decide (c ≠ ':' ∧ c.toNat < 256)) = true := by decide +kernel
  exact of_decide_eq_true (List.all_eq_true.mp all c (uuidCharsKnown mem))

def contextTail (kemUUID : Uuid) (algorithm : Int32) : List Char :=
  (toString algorithm.toInt).toList ++ ':' :: uuidChars kemUUID

theorem contextTailKnown {k : Uuid} {a : Int32} {c : Char} (mem : c ∈ contextTail k a) : c.toNat < 256 := by
  rcases List.mem_append.mp mem with number | rest
  · exact (decimalKnown number).2
  · rcases List.mem_cons.mp rest with separator | handle
    · rw [separator]
      decide
    · exact (uuidKnown handle).2

theorem contextInjective {k k' : Uuid} {a a' : Int32} (same : decapsAADContext k a = decapsAADContext k' a') :
    k = k' ∧ a = a' := by
  have tails : ∀ k a, decapsAADContext k a = Crypto.ascii "wsd:keys:decaps:v1:" ++
      (contextTail k a).map (fun c => UInt8.ofNat c.toNat) := by
    intro k a
    simp [decapsAADContext,Crypto.ascii,contextTail,uuidString]
  rw [tails,tails] at same
  have chars : contextTail k a = contextTail k' a' := asciiInjective (fun _ mem => contextTailKnown mem)
    (fun _ mem => contextTailKnown mem) (List.append_cancel_left same)
  -- The first separator of the tail ends the number.
  obtain ⟨numbers,_,handles⟩ := (List.append_cons_inj_of_notMem (fun mem => (decimalKnown mem).1 rfl)
    (fun mem => (uuidKnown mem).1 rfl)).mp chars
  refine ⟨uuidStringInjective Standin.lawful (congrArg String.ofList handles),Int32.toInt_inj.mp (decimalInjective numbers)⟩

section
variable {x : Externals} {handle handle' : String} {ciphertext : KemCiphertext} {k : Uuid}

theorem decapsParseHandle (parsed : x.parse handle = .ok k) :
    decapsParse x (.ok ⟨some handle,some ciphertext⟩) =
      if ¬ isSupportedKemAlgorithm ciphertext.algorithm then
        .error (writeError ("unsupported ciphertext algorithm: " ++ toString ciphertext.algorithm.toInt ++
          ". Supported algorithms: " ++ supportedKemAlgorithmsString) 400)
      else if ciphertext.ciphertext.length = 0 then .error (writeError "ciphertext.ciphertext must not be empty" 400)
      else .ok ⟨ciphertext.algorithm,k,ciphertext.ciphertext,decapsAADContext k ciphertext.algorithm⟩ := by
  have read : readRequest x DecapsRequest.violations (.ok ⟨some handle,some ciphertext⟩) =
      .ok ⟨some handle,some ciphertext⟩ := rfl
  simp only [decapsParse,read,Option.getD_some,parsed]

theorem decapsParseSpelling (left : x.parse handle = .ok k) (right : x.parse handle' = .ok k) :
    decapsParse x (.ok ⟨some handle,some ciphertext⟩) = decapsParse x (.ok ⟨some handle',some ciphertext⟩) := by
  rw [decapsParseHandle left,decapsParseHandle right]

end

theorem decapsContextCanonical :
    (∀ (k k' : Uuid) (a a' : Int32), decapsAADContext k a = decapsAADContext k' a' → k = k' ∧ a = a') ∧
    (∀ k : Uuid, CanonicalUuid (uuidString k)) ∧
    (∀ (u : Setup) (handle handle' : String) (ciphertext : KemCiphertext) (k : Uuid), u.x.parse handle = .ok k →
      u.x.parse handle' = .ok k →
      let body : Body DecapsRequest := .ok ⟨some handle,some ciphertext⟩
      let body' : Body DecapsRequest := .ok ⟨some handle',some ciphertext⟩
      -- The call that the handler makes, with its context.
      decapsParse u.x body = decapsParse u.x body' ∧
      (∀ call, decapsParse u.x body = .ok call →
        call = ⟨ciphertext.algorithm,k,ciphertext.ciphertext,decapsAADContext k ciphertext.algorithm⟩) ∧
      -- Its first step in any state, and its answer.
      (∀ s i th, startDecaps u s i th body = startDecaps u s i th body') ∧
      (∀ s kpsNow wsNow seed, handleDecaps u s kpsNow wsNow seed body = handleDecaps u s kpsNow wsNow seed body')) := by
  refine ⟨fun k k' a a' same => contextInjective same,uuidCanonical,fun u handle handle' ciphertext k left right => ?_⟩
  have spelling := @decapsParseSpelling u.x handle handle' ciphertext k left right
  refine ⟨spelling,fun call parsed => ?_,fun s i th => ?_,fun s kpsNow wsNow seed => ?_⟩
  · rw [decapsParseHandle left] at parsed
    split at parsed <;> try contradiction
    split at parsed <;> try contradiction
    exact (Except.ok.inj parsed).symm
  · simp only [startDecaps,spelling]
  · simp only [handleDecaps,spelling]

def lenient : Externals :=
  {Standin.externals with parse := fun s => Standin.parse (String.ofList (s.toList.map Char.toLower))}

theorem decapsContextCanonicalCapital :
    let body := fun handle : String => (.ok ⟨some handle,some ⟨1,[9]⟩⟩ : Body DecapsRequest)
    decapsParse lenient (body "00000000-0000-0000-0000-00000000000A") =
      .ok ⟨1,10,[9],decapsAADContext 10 1⟩ ∧
    decapsParse lenient (body "00000000-0000-0000-0000-00000000000A") =
      decapsParse lenient (body "00000000-0000-0000-0000-00000000000a") := by
  obtain ⟨_,_,spellings⟩ := decapsContextCanonical
  have both := spellings ⟨lenient,.vmEmulated,.vmEmulated,1000000000,60000000000⟩ "00000000-0000-0000-0000-00000000000A"
    "00000000-0000-0000-0000-00000000000a" ⟨1,[9]⟩ 10 (by decide +kernel) (by decide +kernel)
  exact ⟨by decide +kernel,both.1⟩

end KeyProtection
