import KeyProtection.Expiry
import KeyProtection.Manageable

/-! The ends of the two lifespans of one generate request, on one clock. The binding key has
to exist before the KEM key that names it, so its clock is read first, and it expires first
by the time that passes between the two readings. Whatever else happens, as long as nobody
destroys the pair or purges the binding keys, that window is the only one in which the KEM
key is live and its binding key is not. -/
namespace KeyProtection
open Lib Lib.Run KeyRegistry

/- Both services read one clock, no cleanup runs, and no destroy request removes a part of
the pair of h. -/
def LeftAlone (h : Uuid) (s : System) : Label → Prop
  | .serve i _ => ∀ th ∈ s.threads[i]?, th.rpc ≠ some ⟨.destroy h,none⟩
  | .advance i _ => ∀ th ∈ s.threads[i]?, th.task.removes ≠ some h
  | .tick kps ws => kps = ws
  | .beat pulse => pulse ≠ .destroysAll ∧ pulse ≠ .resets
  | _ => True

instance (h : Uuid) (s : System) (l : Label) : Decidable (LeftAlone h s l) :=
  match l with
  | .serve i _ => inferInstanceAs (Decidable (∀ th ∈ s.threads[i]?, th.rpc ≠ some ⟨.destroy h,none⟩))
  | .advance i _ => inferInstanceAs (Decidable (∀ th ∈ s.threads[i]?, th.task.removes ≠ some h))
  | .tick kps ws => inferInstanceAs (Decidable (kps = ws))
  | .beat pulse => inferInstanceAs (Decidable (pulse ≠ .destroysAll ∧ pulse ≠ .resets))
  | .arrive _ | .receive _ | .replay _ _ | .fail _ _ | .reapKps _ | .reapWs _ | .restart _ => .isTrue trivial

def MadeFor (s : System) (h : Uuid) (binding : BindingBirth) : Prop :=
  ∀ kem ∈ s.kems, kem.owner = binding.owner → kem.record.id = h

structure Paired (u : Setup) (h : Uuid) (s : System) : Prop where
  owned : Owned u s
  dated : Dated s
  clock : s.kpsNow = s.wsNow
  past : ∀ binding ∈ s.bindings, binding.record.metadata.createdAt ≤ s.wsNow
  order : ∀ kem ∈ s.kems, ∀ binding ∈ s.bindings, binding.owner = kem.owner →
    binding.record.metadata.createdAt ≤ kem.record.metadata.createdAt
  kept : ∀ binding ∈ s.bindings, MadeFor s h binding →
    s.ws.lookup binding.record.id = some binding.record ∨ binding.record.deleteAfter ≤ s.wsNow
  mapped : Telling s h → (s.kemToBindingMap.lookup h).isSome

section
variable {u : Setup} {s t : System} {l : Label} {h : Uuid}

theorem leftAloneUnforced {binding : BindingBirth} (owned : Owned u s) (allowed : LeftAlone h s l)
    (mem : binding ∈ s.bindings) (own : MadeFor s h binding) : Unforced h binding.record.id s l := by
  cases l with
  | serve i entropy => exact allowed
  | advance i entropy =>
    intro th found unbinds
    refine allowed th found ?_
    have task := (owned.threads i th found).task
    cases stage : th.task with
    | destroyBinding k b errKps =>
      rw [stage] at task unbinds
      obtain ⟨kem,kemMem,other,otherMem,kemId,otherId,owner,_⟩ := task.1
      have same := bindingSame owned otherMem mem (otherId.trans (Option.some.inj unbinds))
      exact congrArg some (kemId.symm.trans (own kem kemMem (owner.trans (congrArg BindingBirth.owner same))))
    | _ =>
      rw [stage] at unbinds
      contradiction
  | beat pulse =>
    cases pulse with
    | destroysAll => exact absurd rfl allowed.1
    | _ => trivial
  | _ => trivial

theorem clockMoves (move : Move u s l t) (allowed : LeftAlone h s l) (clock : s.kpsNow = s.wsNow) :
    t.kpsNow = t.wsNow := by
  cases move with
  | ticked kps ws =>
    have same : kps = ws := allowed
    simp only [clock,same]
  | _ => exact clock

theorem bindingOrder {kem : KemBirth} {binding : BindingBirth} (before : Paired u h s) (move : Move u s l t)
    (kemMem : kem ∈ t.kems) (mem : binding ∈ t.bindings) (owner : binding.owner = kem.owner) :
    binding.record.metadata.createdAt ≤ kem.record.metadata.createdAt := by
  cases move with
  | @bindingMade i th entropy body plan suite pubKey record found fresh request planned unused decoded created spec =>
    rcases List.mem_cons.mp mem with new | old
    · subst new
      obtain ⟨other,_,_,here,replied⟩ := (before.owned.kems kem kemMem).told
      rw [← owner] at here
      cases Option.some.inj (found.symm.trans here)
      rw [(before.owned.threads i th found).silent fresh] at replied
      contradiction
    · exact before.order kem kemMem binding old owner
  | kemMade found sent unused bound decoded created spec =>
    rcases List.mem_cons.mp kemMem with new | old
    · subst new
      exact (before.past binding mem).trans (created.createdAt.trans before.clock).ge
    · exact before.order kem old binding mem owner
  | _ => exact before.order kem kemMem binding mem owner

theorem bindingKept {binding : BindingBirth} (before : Paired u h s) (allowed : LeftAlone h s l) (move : Move u s l t)
    (mem : binding ∈ t.bindings) (own : MadeFor t h binding) :
    t.ws.lookup binding.record.id = some binding.record ∨ binding.record.deleteAfter ≤ t.wsNow := by
  have grows := ownedGrows before.owned move
  rcases bindingsMade move mem with old | ⟨_,ws,_⟩
  · have own' : MadeFor s h binding := fun kem kemMem owner => own kem (grows.kems kem kemMem) owner
    have later := (clocksGrow move).2
    rcases before.kept binding old own' with here | gone
    · rcases unforcedWs move (leftAloneUnforced before.owned allowed old own') old rfl with
        ⟨now,label,ws⟩ | ⟨same,_⟩
      · by_cases alive : now < binding.record.deleteAfter
        · left
          rw [ws]
          exact reapKeeps here alive
        · subst label
          exact .inr ((Nat.not_lt.mp alive).trans (passWs move))
      · exact .inl (same.trans here)
    · exact .inr (gone.trans later)
  · left
    rw [ws,addKey,Table.lookupInsert]
    exact if_pos rfl

theorem leftAloneSpares (allowed : LeftAlone h s l) : Spares h s l := by
  cases l with
  | beat pulse =>
    cases pulse with
    | resets => exact absurd rfl allowed.2
    | _ => trivial
  | _ => trivial

theorem mappedStays (move : Move u s l t) (allowed : LeftAlone h s l) (mapped : (s.kemToBindingMap.lookup h).isSome) :
    (t.kemToBindingMap.lookup h).isSome := by
  rcases mappedMoves move (leftAloneSpares allowed) mapped with kept | ⟨j,th,entropy,label,found,removes⟩
  · exact kept
  · subst label
    exact absurd removes (allowed th found)

theorem pairedStep (before : Paired u h s) (allowed : LeftAlone h s l) (move : Move u s l t) : Paired u h t where
  owned := ownedStep before.owned move
  dated := datedStep before.dated (ownedGrows before.owned move) move
  clock := clockMoves move allowed before.clock
  past := by
    intro binding mem
    rcases bindingsMade move mem with old | ⟨createdAt,_⟩
    · exact (before.past binding old).trans (clocksGrow move).2
    · exact createdAt.le.trans (clocksGrow move).2
  order := fun kem kemMem binding mem owner => bindingOrder before move kemMem mem owner
  kept := fun binding mem own => bindingKept before allowed move mem own
  mapped := by
    intro telling
    rcases tellingBefore before.owned move telling with told | stored
    · exact mappedStays move allowed (before.mapped told)
    · exact stored

theorem pairedInitial (u : Setup) (h : Uuid) (now : Nat) (token : String) :
    Paired u h (System.initial now now token) := by
  refine ⟨ownedInitial u now now token,datedInitial now now token,rfl,fun binding mem => ?_,fun kem mem => ?_,
    fun binding mem => ?_,fun telling => ?_⟩
  · cases mem
  · cases mem
  · cases mem
  · obtain ⟨kem,mem,_⟩ := telling
    cases mem

theorem openNeverMissing (c : Bssl) (privateKey enc ciphertext aad : Bytes) (suite : HpkeAlgorithm) :
    Crypto.hpkeOpenInternal c privateKey enc ciphertext aad suite ≠ .error (.err .notFound) := by
  unfold Crypto.hpkeOpenInternal
  split
  · simp
  split
  · simp
  split <;> simp

theorem openNotFound {x : Externals} {keys : KeyRegistry} {now : Nat} {bindingUUID : Uuid} {enc ciphertext aad : Bytes}
    (rejected : WsCore.openSecret x keys now bindingUUID enc ciphertext aad = failed (.ffi .notFound)) :
    getKey keys now bindingUUID = none := by
  have encGiven : enc ≠ [] := by
    intro empty
    simp [WsCore.openSecret,empty,failed] at rejected
  have ciphertextGiven : ciphertext ≠ [] := by
    intro empty
    simp [WsCore.openSecret,encGiven,empty,failed] at rejected
  rw [WsCore.openSecretEq x keys now bindingUUID aad encGiven ciphertextGiven] at rejected
  cases found : getKey keys now bindingUUID with
  | none => rfl
  | some record =>
    cases spec : record.metadata.spec with
    | kemWithBindingPub suite kemKey bindingKey =>
      simp [WsCore.openInternal,found,spec,ffiCall,failed] at rejected
    | binding suite bindingKey =>
      have other := openNeverMissing x.bssl record.privateKey enc ciphertext aad suite
      simp only [WsCore.openInternal,found,spec] at rejected
      split at rejected
      · split at rejected <;> simp [failed] at rejected
      · rename_i fault wrong
        cases fault with
        | panic => simp [ffiCall,failed] at rejected
        | err status =>
          have same : status = .notFound := by simpa [ffiCall,failed] using rejected
          exact absurd (same ▸ wrong) other

structure Outlived (u : Setup) (s : System) (h : Uuid) (kem : KemBirth) (binding : BindingBirth) : Prop where
  named : kem.record.id = h
  mapped : s.kemToBindingMap.lookup h = some binding.record.id
  lives : ∃ lifespanSecs : UInt64, Lives lifespanSecs kem.record ∧ Lives lifespanSecs binding.record
  order : binding.record.metadata.createdAt ≤ kem.record.metadata.createdAt
  window : kem.record.deleteAfter = binding.record.deleteAfter +
    (kem.record.metadata.createdAt - binding.record.metadata.createdAt)
  bindingLive : getKey s.ws s.wsNow binding.record.id = some binding.record ↔ s.wsNow < binding.record.deleteAfter
  kemLive : ∀ record, getKey s.kps s.kpsNow h = some record → record = kem.record ∧
    (getKey s.ws s.wsNow binding.record.id = some binding.record ∨ (binding.record.deleteAfter ≤ s.wsNow ∧
      s.wsNow < binding.record.deleteAfter + (kem.record.metadata.createdAt - binding.record.metadata.createdAt)))
  opened : ∀ (i : Nat) (th : Thread) call b sealEnc sealedCT, s.threads[i]? = some th →
    th.task = .decapsOpening call b sealEnc sealedCT → call.kemUUID = h → b = binding.record.id ∧
      (WsCore.openSecret u.x s.ws s.wsNow b sealEnc sealedCT call.aad = failed (.ffi .notFound) →
        binding.record.deleteAfter ≤ s.wsNow)

theorem livesWindow {lifespanSecs : UInt64} {later sooner : KeyRecord} (left : Lives lifespanSecs later)
    (right : Lives lifespanSecs sooner) (order : sooner.metadata.createdAt ≤ later.metadata.createdAt) :
    later.deleteAfter = sooner.deleteAfter + (later.metadata.createdAt - sooner.metadata.createdAt) := by
  unfold Lives checkedAdd at left right
  split at left <;> try contradiction
  split at right <;> try contradiction
  have sum := Option.some.inj left
  have sum' := Option.some.inj right
  omega

theorem kemOutlivesBinding (laws : u.x.Lawful) {now : Nat} {token : String} {ls : List Label}
    (run : Along (step u) (LeftAlone h) (System.initial now now token) ls s) (returned : Returned s h) :
    ∃ kem ∈ s.kems, ∃ binding ∈ s.bindings, Outlived u s h kem binding := by
  have paired : Paired u h s :=
    alongInvariant (fun _ _ _ before allowed taken => pairedStep before allowed (stepMove taken)) run
      (pairedInitial u h now token)
  have owned := paired.owned
  obtain ⟨b,mapped⟩ := Option.isSome_iff_exists.mp (paired.mapped (returnedTelling laws owned returned))
  have settled := owned.map h b mapped
  obtain ⟨kem,kemMem,binding,mem,kemId,id,owner,_⟩ := settled
  subst id
  obtain ⟨lifespanSecs,_,lives,made,madeMem,madeOwner,madeLives⟩ := paired.dated.kems kem kemMem
  cases bindingOwnerSame owned madeMem mem (madeOwner.trans owner)
  have order := paired.order kem kemMem binding mem owner.symm
  have own : MadeFor s h binding := by
    intro other otherMem same
    rw [kemOwnerSame owned otherMem kemMem (same.trans owner.symm)]
    exact kemId
  have live : getKey s.ws s.wsNow binding.record.id = some binding.record ↔ s.wsNow < binding.record.deleteAfter := by
    rw [getKeyIff]
    refine ⟨fun both => both.2,fun alive => ⟨?_,alive⟩⟩
    rcases paired.kept binding mem own with here | gone
    · exact here
    · omega
  have window := livesWindow lives madeLives order
  refine ⟨kem,kemMem,binding,mem,kemId,mapped,⟨lifespanSecs,lives,madeLives⟩,order,window,live,fun record found => ?_,
    fun i th call b sealEnc sealedCT here stage same => ?_⟩
  · obtain ⟨stored,alive⟩ := getKeyIff.mp found
    obtain ⟨recordId,birth,birthMem,rfl⟩ := owned.kps h record stored
    cases kemSame owned birthMem kemMem (recordId.trans kemId.symm)
    refine ⟨rfl,?_⟩
    rw [paired.clock,window] at alive
    by_cases early : s.wsNow < binding.record.deleteAfter
    · exact .inl (live.mpr early)
    · exact .inr ⟨Nat.not_lt.mp early,alive⟩
  · have task := (owned.threads i th here).task
    rw [stage] at task
    have settledHere : Settled s h b := same ▸ task.1
    have names := settledBinding owned settledHere (owned.map h _ mapped)
    refine ⟨names,fun rejected => ?_⟩
    have missing := openNotFound rejected
    rw [names] at missing
    by_contra alive
    rw [live.mpr (Nat.not_le.mp alive)] at missing
    contradiction

end

def decapsBetween : List Label :=
  [.arrive Standin.generateRequest,.advance 0 (Standin.entropy 1),.tick 10 10,.serve 0 (Standin.entropy 2),.receive 0,
    .advance 0 (Standin.entropy 0),.advance 0 (Standin.entropy 0),.tick 3599999999995 3599999999995,
    .arrive (Standin.decapsRequest 2 (Standin.pad32 [9])),.advance 1 (Standin.entropy 0),.serve 1 (Standin.entropy 7),
    .receive 1]

theorem returnedBetween : Returned (Standin.after decapsBetween) 2 := by
  have stage : Task.answered (toldKey 2 (Standin.pad32 [2])) ∈ (Standin.after decapsBetween).threads.map Thread.task := by
    decide +kernel
  obtain ⟨th,mem,same⟩ := List.mem_map.mp stage
  exact ⟨th,mem,_,same,rfl⟩

theorem kemOutlivesBindingBetween :
    let s := Standin.after decapsBetween
    ∃ kem ∈ s.kems, ∃ binding ∈ s.bindings, Outlived Standin.setup s 2 kem binding ∧
      binding.record.deleteAfter = 3600000000000 ∧ kem.record.deleteAfter = 3600000000010 := by
  intro s
  have run : Along (step Standin.setup) (LeftAlone 2) Standin.start decapsBetween s := alongGetD (by decide +kernel)
  have deadlines : (∀ kem ∈ s.kems, kem.record.deleteAfter = 3600000000010) ∧
      ∀ binding ∈ s.bindings, binding.record.deleteAfter = 3600000000000 := by decide +kernel
  obtain ⟨kem,kemMem,binding,mem,outlived⟩ := kemOutlivesBinding Standin.lawful run returnedBetween
  exact ⟨kem,kemMem,binding,mem,outlived,deadlines.2 binding mem,deadlines.1 kem kemMem⟩

theorem sealedForExpired :
    let s := Standin.after decapsBetween
    Standin.setup.mode = .vmEmulated ∧ Along (step Standin.setup) (LeftAlone 2) Standin.start decapsBetween s ∧
    Returned s 2 ∧ (getKey s.kps s.kpsNow 2).isSome ∧ s.kemToBindingMap.lookup 2 = some 1 ∧
    getKey s.ws s.wsNow 1 = none ∧
    (Standin.onward s [.advance 1 (Standin.entropy 0),.advance 1 (Standin.entropy 0)]).threads.map Thread.task =
      [.answered (toldKey 2 (Standin.pad32 [2])),
        .answered (.http 404 (.error "failed to open sealed secret: FFI status: STATUS_NOT_FOUND"))] := by
  intro s
  have ends : (getKey s.kps s.kpsNow 2).isSome ∧ s.kemToBindingMap.lookup 2 = some 1 ∧ getKey s.ws s.wsNow 1 = none ∧
      (Standin.onward s [.advance 1 (Standin.entropy 0),.advance 1 (Standin.entropy 0)]).threads.map Thread.task =
        [.answered (toldKey 2 (Standin.pad32 [2])),
          .answered (.http 404 (.error "failed to open sealed secret: FFI status: STATUS_NOT_FOUND"))] := by
    decide +kernel
  exact ⟨rfl,alongGetD (by decide +kernel),returnedBetween,ends⟩

end KeyProtection
