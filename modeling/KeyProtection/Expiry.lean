import KeyProtection.DestroyAnswers

/-! Deadlines over whole runs. The two keys of a request get the same lifespan, each from the
clock of its own custody core, and nothing but a sweep at or after its deadline, a restart, a
cleanup or a destroy request takes a record away. Lookups hide an expired record and
remove_key does not, so what a destroy request answers depends on the sweeps. -/
namespace KeyProtection
open Lib Lib.Run KeyRegistry

def Lives (lifespanSecs : UInt64) (record : KeyRecord) : Prop :=
  checkedAdd record.metadata.createdAt lifespanSecs = some record.deleteAfter

structure Dated (s : System) : Prop where
  sent : ∀ (i : Nat) (th : Thread) algo bindingPubKey lifespanSecs reply, s.threads[i]? = some th →
    th.rpc = some ⟨.generate algo bindingPubKey lifespanSecs,reply⟩ → 0 < lifespanSecs.toNat ∧
      ∃ binding ∈ s.bindings, binding.owner = i ∧ Lives lifespanSecs binding.record
  kems : ∀ kem ∈ s.kems, ∃ lifespanSecs : UInt64, 0 < lifespanSecs.toNat ∧ Lives lifespanSecs kem.record ∧
    ∃ binding ∈ s.bindings, binding.owner = kem.owner ∧ Lives lifespanSecs binding.record
  bindings : ∀ binding ∈ s.bindings, ∃ lifespanSecs : UInt64, 0 < lifespanSecs.toNat ∧ Lives lifespanSecs binding.record
  boots : ∀ kem ∈ s.kems, kem.boot ≤ s.boot

section
variable {u : Setup} {s t : System} {l : Label}

theorem livesAfter {lifespanSecs : UInt64} {record : KeyRecord} (positive : 0 < lifespanSecs.toNat)
    (lives : Lives lifespanSecs record) : record.metadata.createdAt < record.deleteAfter := by
  unfold Lives checkedAdd at lives
  split at lives <;> try contradiction
  have sum := Option.some.inj lives
  have nanos : 0 < lifespanSecs.toNat * nanosPerSec := Nat.mul_pos positive (by decide)
  omega

theorem createdLives {c suite lifespanSecs entropy now pubKey record}
    (created : KeyRecord.Created c suite lifespanSecs entropy now pubKey record) : Lives lifespanSecs record := by
  rw [Lives,created.createdAt]
  exact created.deadline

theorem generateSent {j : Nat} {th' : Thread} {algo bindingPubKey lifespanSecs reply} (move : Move u s l t)
    (here : t.threads[j]? = some th') (sent : th'.rpc = some ⟨.generate algo bindingPubKey lifespanSecs,reply⟩) :
    (∃ th reply', s.threads[j]? = some th ∧ th.rpc = some ⟨.generate algo bindingPubKey lifespanSecs,reply'⟩) ∨
    (0 < lifespanSecs.toNat ∧ ∃ record, t.bindings = ⟨j,record⟩ :: s.bindings ∧ Lives lifespanSecs record) := by
  rcases threadBefore move here with ⟨request,_,new⟩ | same | ⟨th,found,moved⟩
  · rw [new] at sent
    contradiction
  · exact .inl ⟨th',reply,same,sent⟩
  · cases moved with
    | quiet taken same =>
      have kept : th'.rpc = th.rpc := by
        cases taken <;> first | rfl | cases sent
      exact .inl ⟨th,reply,found,kept ▸ sent⟩
    | @making entropy plan record pubKey body label fresh request born ws =>
      cases move with
      | @bindingMade i th'' entropy' body' plan' suite pubKey' record' found' fresh' request' planned unused decoded
          created spec =>
        obtain ⟨owner,_⟩ := BindingBirth.mk.inj (List.cons.inj born).1
        subst owner
        have written := ((getPut found' i).trans (if_pos rfl)).symm.trans here
        rw [← Option.some.inj written] at sent
        cases sent
        obtain ⟨req,_,_,_,asked,positive⟩ := generatePlanned planned
        exact .inr ⟨asked ▸ positive,record',rfl,createdLives created⟩
      | _ => exact absurd born.symm (List.cons_ne_self _ _)
    | replied label waiting reads destroys =>
      cases sent
      exact .inl ⟨th,none,found,waiting⟩
    | storing label stage map => exact .inl ⟨th,reply,found,sent⟩
    | unbinding label stage ws log => exact .inl ⟨th,reply,found,sent⟩
    | unmapping label stage map => exact .inl ⟨th,reply,found,sent⟩

theorem kemsMade {kem : KemBirth} (move : Move u s l t) (mem : kem ∈ t.kems) :
    kem ∈ s.kems ∨ (kem.boot = t.boot ∧ kem.record.metadata.createdAt = s.kpsNow ∧ t.kps = addKey s.kps kem.record ∧
      (∀ now, l ≠ .reapKps now) ∧ ∃ th algo bindingPubKey lifespanSecs, s.threads[kem.owner]? = some th ∧
        th.rpc = some ⟨.generate algo bindingPubKey lifespanSecs,none⟩ ∧ Lives lifespanSecs kem.record) := by
  cases move with
  | kemMade found sent unused bound decoded created spec =>
    rcases List.mem_cons.mp mem with new | old
    · subst new
      exact .inr ⟨rfl,created.createdAt,rfl,(fun now same => by cases same),_,_,_,_,found,sent,createdLives created⟩
    · exact .inl old
  | _ => exact .inl mem

theorem bindingsMade {binding : BindingBirth} (move : Move u s l t) (mem : binding ∈ t.bindings) :
    binding ∈ s.bindings ∨ (binding.record.metadata.createdAt = s.wsNow ∧ t.ws = addKey s.ws binding.record ∧
      (∀ now, l ≠ .reapWs now) ∧ ∃ lifespanSecs : UInt64, 0 < lifespanSecs.toNat ∧ Lives lifespanSecs binding.record) := by
  cases move with
  | bindingMade found fresh request planned unused decoded created spec =>
    rcases List.mem_cons.mp mem with new | old
    · subst new
      obtain ⟨req,_,_,_,asked,positive⟩ := generatePlanned planned
      exact .inr ⟨created.createdAt,rfl,(fun now same => by cases same),_,asked ▸ positive,createdLives created⟩
    · exact .inl old
  | _ => exact .inl mem

theorem bootsGrow (move : Move u s l t) : s.boot ≤ t.boot := by
  cases move with
  | restarted given unused => exact Nat.le_succ _
  | _ => exact Nat.le_refl _

theorem datedStep (dated : Dated s) (grows : Grows s t) (move : Move u s l t) : Dated t where
  sent := by
    intro i th algo bindingPubKey lifespanSecs reply here sent
    rcases generateSent move here sent with ⟨th',reply',found,before⟩ | ⟨positive,record,born,lives⟩
    · obtain ⟨positive,binding,mem,rest⟩ := dated.sent i th' algo bindingPubKey lifespanSecs reply' found before
      exact ⟨positive,binding,grows.bindings binding mem,rest⟩
    · exact ⟨positive,⟨i,record⟩,by rw [born]; exact List.mem_cons_self,rfl,lives⟩
  kems := by
    intro kem mem
    rcases kemsMade move mem with old | ⟨_,_,_,_,th,algo,bindingPubKey,lifespanSecs,found,sent,lives⟩
    · obtain ⟨lifespanSecs,positive,lives,binding,there,rest⟩ := dated.kems kem old
      exact ⟨lifespanSecs,positive,lives,binding,grows.bindings binding there,rest⟩
    · obtain ⟨positive,binding,there,rest⟩ := dated.sent _ th algo bindingPubKey lifespanSecs none found sent
      exact ⟨lifespanSecs,positive,lives,binding,grows.bindings binding there,rest⟩
  bindings := by
    intro binding mem
    rcases bindingsMade move mem with old | ⟨_,_,_,lives⟩
    · exact dated.bindings binding old
    · exact lives
  boots := by
    intro kem mem
    rcases kemsMade move mem with old | ⟨boot,_⟩
    · exact (dated.boots kem old).trans (bootsGrow move)
    · exact Nat.le_of_eq boot

theorem datedInitial (kpsNow wsNow : Nat) (token : String) : Dated (System.initial kpsNow wsNow token) := by
  refine ⟨fun i th algo bindingPubKey lifespanSecs reply here _ => ?_,fun kem mem => ?_,fun binding mem => ?_,
    fun kem mem => ?_⟩
  · simp [System.initial] at here
  · cases mem
  · cases mem
  · cases mem

end

/-! Only sweeps and restarts: nobody destroys the pair and no cleanup takes it. -/

def Task.unbinds : Task → Option Uuid
  | .destroyBinding _ bindingUUID _ => some bindingUUID
  | _ => none

def Unforced (h b : Uuid) (s : System) : Label → Prop
  | .serve i _ => ∀ th ∈ s.threads[i]?, th.rpc ≠ some ⟨.destroy h,none⟩
  | .advance i _ => ∀ th ∈ s.threads[i]?, th.task.unbinds ≠ some b
  | .beat .destroysAll => ∀ binding ∈ s.bindings, binding.record.id ≠ b
  | _ => True

instance (h b : Uuid) (s : System) (l : Label) : Decidable (Unforced h b s l) :=
  match l with
  | .serve i _ => inferInstanceAs (Decidable (∀ th ∈ s.threads[i]?, th.rpc ≠ some ⟨.destroy h,none⟩))
  | .advance i _ => inferInstanceAs (Decidable (∀ th ∈ s.threads[i]?, th.task.unbinds ≠ some b))
  | .beat .destroysAll => inferInstanceAs (Decidable (∀ binding ∈ s.bindings, binding.record.id ≠ b))
  | .beat .begins | .beat .kpsAnswers | .beat .receives | .beat .fails | .beat .timerFires | .beat .cancelled
  | .beat .locks | .beat .resets | .beat .returns | .beat .stops | .arrive _ | .receive _ | .replay _ _ | .fail _ _
  | .tick _ _ | .reapKps _ | .reapWs _ | .restart _ => .isTrue trivial

def UnsweptKps (ls : List Label) (record : KeyRecord) : Prop := ∀ now, .reapKps now ∈ ls → now < record.deleteAfter

def UnsweptWs (ls : List Label) (record : KeyRecord) : Prop := ∀ now, .reapWs now ∈ ls → now < record.deleteAfter

structure Sweeping (u : Setup) (h b : Uuid) (ls : List Label) (s : System) : Prop where
  owned : Owned u s
  dated : Dated s
  pastKps : ∀ now, .reapKps now ∈ ls → now ≤ s.kpsNow
  pastWs : ∀ now, .reapWs now ∈ ls → now ≤ s.wsNow
  kem : ∀ kem ∈ s.kems, kem.record.id = h → ((s.kps.lookup h).isSome = true ↔
    kem.boot = s.boot ∧ UnsweptKps ls kem.record)
  binding : ∀ binding ∈ s.bindings, binding.record.id = b → ((s.ws.lookup b).isSome = true ↔
    UnsweptWs ls binding.record)

section
variable {u : Setup} {s t : System} {l : Label} {ks : List Label} {h b : Uuid}

theorem clocksGrow (move : Move u s l t) : s.kpsNow ≤ t.kpsNow ∧ s.wsNow ≤ t.wsNow := by
  cases move with
  | ticked kps ws => exact ⟨Nat.le_add_right _ _,Nat.le_add_right _ _⟩
  | _ => exact ⟨Nat.le_refl _,Nat.le_refl _⟩

theorem passesSnoc {pass : Nat → Label} {good : Nat → Prop} :
    (∀ now, pass now ∈ ks ++ [l] → good now) ↔
      (∀ now, pass now ∈ ks → good now) ∧ ∀ now, l = pass now → good now := by
  simp only [List.mem_append,List.mem_singleton]
  refine ⟨fun all => ⟨fun now mem => all now (.inl mem),fun now same => all now (.inr same.symm)⟩,fun both now mem => ?_⟩
  rcases mem with old | new
  · exact both.1 now old
  · exact both.2 now new.symm

theorem unsweptKpsSnoc {record : KeyRecord} :
    UnsweptKps (ks ++ [l]) record ↔ UnsweptKps ks record ∧ ∀ now, l = .reapKps now → now < record.deleteAfter :=
  passesSnoc

theorem unsweptWsSnoc {record : KeyRecord} :
    UnsweptWs (ks ++ [l]) record ↔ UnsweptWs ks record ∧ ∀ now, l = .reapWs now → now < record.deleteAfter :=
  passesSnoc

theorem reapedIff {keys : KeyRegistry} {now : Nat} {id : Uuid} {record : KeyRecord}
    (only : ∀ found, keys.lookup id = some found → found = record) :
    ((reap keys now).lookup id).isSome = true ↔ (keys.lookup id).isSome = true ∧ now < record.deleteAfter := by
  rw [reap,Table.lookupRetain]
  cases here : keys.lookup id with
  | none => simp
  | some found =>
    cases only found here
    simp [Option.filter,KeyRecord.deleteAfter,apply_ite]

theorem quietSweepsNothing {i : Nat} {th th' : Thread} (next : Quiet u s i th l th') (now : Nat) :
    l ≠ .reapKps now ∧ l ≠ .reapWs now := by
  have mover : l.mover = some i := movedMover (.quiet next rfl)
  constructor
  · intro same
    rw [same] at mover
    contradiction
  · intro same
    rw [same] at mover
    contradiction

theorem unforcedKps {kem : KemBirth} (move : Move u s l t) (allowed : Unforced h b s l) (mem : kem ∈ s.kems)
    (id : kem.record.id = h) :
    (∃ now, l = .reapKps now ∧ t.kps = reap s.kps now ∧ t.boot = s.boot) ∨
    (∃ token, l = .restart token ∧ t.kps = ∅ ∧ t.boot = s.boot + 1) ∨
    (t.kps.lookup h = s.kps.lookup h ∧ t.boot = s.boot ∧ ∀ now, l ≠ .reapKps now) := by
  cases move with
  | quiet found next => exact .inr (.inr ⟨rfl,rfl,fun now => (quietSweepsNothing next now).1⟩)
  | kemMade found sent unused bound decoded created spec =>
    refine .inr (.inr ⟨?_,rfl,fun now same => by cases same⟩)
    simp only [addKey,Table.lookupInsert]
    split
    · rename_i same
      exact absurd (List.mem_map.mpr ⟨kem,mem,id.trans same⟩) unused.1
    · rfl
  | @kemDestroyed i th entropy kemUUID found sent =>
    have other : h ≠ kemUUID := fun same => allowed th found (same ▸ sent)
    exact .inr (.inr ⟨AList.lookup_erase_ne other,rfl,fun now same => by cases same⟩)
  | reapedKps past => exact .inl ⟨_,rfl,rfl,rfl⟩
  | restarted given unused => exact .inr (.inl ⟨_,rfl,rfl,rfl⟩)
  | _ => exact .inr (.inr ⟨rfl,rfl,fun now same => by cases same⟩)

theorem unforcedWs {binding : BindingBirth} (move : Move u s l t) (allowed : Unforced h b s l) (mem : binding ∈ s.bindings)
    (id : binding.record.id = b) :
    (∃ now, l = .reapWs now ∧ t.ws = reap s.ws now) ∨ (t.ws.lookup b = s.ws.lookup b ∧ ∀ now, l ≠ .reapWs now) := by
  cases move with
  | quiet found next => exact .inr ⟨rfl,fun now => (quietSweepsNothing next now).2⟩
  | bindingMade found fresh request planned unused decoded created spec =>
    refine .inr ⟨?_,fun now same => by cases same⟩
    simp only [addKey,Table.lookupInsert]
    split
    · rename_i same
      exact absurd (List.mem_map.mpr ⟨binding,mem,id.trans same⟩) unused.2
    · rfl
  | @bindingDestroyed i th entropy kemUUID bindingUUID errKps found stage =>
    have other : b ≠ bindingUUID := by
      intro same
      refine allowed th found ?_
      rw [stage,same]
      rfl
    exact .inr ⟨AList.lookup_erase_ne other,fun now same => by cases same⟩
  | reapedWs past => exact .inl ⟨_,rfl,rfl⟩
  | purged stage => exact absurd id (allowed binding mem)
  | _ => exact .inr ⟨rfl,fun now same => by cases same⟩

theorem sweepingKem {kem : KemBirth} (before : Sweeping u h b ks s) (move : Move u s l t) (allowed : Unforced h b s l)
    (mem : kem ∈ s.kems) (id : kem.record.id = h) :
    (t.kps.lookup h).isSome = true ↔ kem.boot = t.boot ∧ UnsweptKps (ks ++ [l]) kem.record := by
  have stored := before.kem kem mem id
  rw [unsweptKpsSnoc]
  rcases unforcedKps move allowed mem id with ⟨now,label,kps,boot⟩ | ⟨token,label,kps,boot⟩ | ⟨kps,boot,other⟩
  · have only : ∀ found, s.kps.lookup h = some found → found = kem.record := by
      intro found here
      obtain ⟨same,birth,there,rfl⟩ := before.owned.kps h found here
      exact congrArg KemBirth.record (kemSame before.owned there mem (same.trans id.symm))
    rw [kps,boot,reapedIff only,stored,label]
    refine ⟨fun both => ⟨both.1.1,both.1.2,fun later same => ?_⟩,fun both => ⟨⟨both.1,both.2.1⟩,both.2.2 now rfl⟩⟩
    cases same
    exact both.2
  · have older := before.dated.boots kem mem
    rw [kps,AList.lookup_empty]
    refine ⟨fun none => ?_,fun both => ?_⟩
    · contradiction
    · omega
  · rw [kps,boot,stored]
    exact ⟨fun both => ⟨both.1,both.2,fun now same => absurd same (other now)⟩,fun both => ⟨both.1,both.2.1⟩⟩

theorem sweepingBinding {binding : BindingBirth} (before : Sweeping u h b ks s) (move : Move u s l t)
    (allowed : Unforced h b s l) (mem : binding ∈ s.bindings) (id : binding.record.id = b) :
    (t.ws.lookup b).isSome = true ↔ UnsweptWs (ks ++ [l]) binding.record := by
  have stored := before.binding binding mem id
  rw [unsweptWsSnoc]
  rcases unforcedWs move allowed mem id with ⟨now,label,ws⟩ | ⟨ws,other⟩
  · have only : ∀ found, s.ws.lookup b = some found → found = binding.record := by
      intro found here
      obtain ⟨same,birth,there,rfl⟩ := before.owned.ws b found here
      exact congrArg BindingBirth.record (bindingSame before.owned there mem (same.trans id.symm))
    rw [ws,reapedIff only,stored,label]
    refine ⟨fun both => ⟨both.1,fun later same => ?_⟩,fun both => ⟨both.1,both.2 now rfl⟩⟩
    cases same
    exact both.2
  · rw [ws,stored]
    exact ⟨fun all => ⟨all,fun now same => absurd same (other now)⟩,fun both => both.1⟩

theorem passKps {now : Nat} (move : Move u s (.reapKps now) t) : now ≤ t.kpsNow := by
  cases move with
  | quiet found next => exact absurd rfl (quietSweepsNothing next now).1
  | reapedKps past => exact past

theorem passWs {now : Nat} (move : Move u s (.reapWs now) t) : now ≤ t.wsNow := by
  cases move with
  | quiet found next => exact absurd rfl (quietSweepsNothing next now).2
  | reapedWs past => exact past

theorem sweepingStep (before : Sweeping u h b ks s) (allowed : Unforced h b s l) (move : Move u s l t) :
    Sweeping u h b (ks ++ [l]) t := by
  have grows := ownedGrows before.owned move
  have dated := datedStep before.dated grows move
  refine ⟨ownedStep before.owned move,dated,fun now mem => ?_,fun now mem => ?_,fun kem mem id => ?_,
    fun binding mem id => ?_⟩
  · rcases List.mem_append.mp mem with old | new
    · exact (before.pastKps now old).trans (clocksGrow move).1
    · cases List.mem_singleton.mp new
      exact passKps move
  · rcases List.mem_append.mp mem with old | new
    · exact (before.pastWs now old).trans (clocksGrow move).2
    · cases List.mem_singleton.mp new
      exact passWs move
  · rcases kemsMade move mem with old | ⟨boot,createdAt,kps,other,_⟩
    · exact sweepingKem before move allowed old id
    · -- A new record is stored, and all the passes so far are past.
      obtain ⟨lifespanSecs,positive,lives,_⟩ := dated.kems kem mem
      have alive := livesAfter positive lives
      have present : (t.kps.lookup h).isSome = true := by
        rw [kps,addKey,Table.lookupInsert,if_pos (show h = kem.record.metadata.id from id.symm)]
        rfl
      refine ⟨fun _ => ⟨boot,unsweptKpsSnoc.mpr ⟨fun now pass => ?_,fun now same => absurd same (other now)⟩⟩,
        fun _ => present⟩
      exact Nat.lt_of_le_of_lt (before.pastKps now pass) (createdAt ▸ alive)
  · rcases bindingsMade move mem with old | ⟨createdAt,ws,other,lifespanSecs,positive,lives⟩
    · exact sweepingBinding before move allowed old id
    · have alive := livesAfter positive lives
      have present : (t.ws.lookup b).isSome = true := by
        rw [ws,addKey,Table.lookupInsert,if_pos (show b = binding.record.metadata.id from id.symm)]
        rfl
      refine ⟨fun _ => unsweptWsSnoc.mpr ⟨fun now pass => ?_,fun now same => absurd same (other now)⟩,fun _ => present⟩
      exact Nat.lt_of_le_of_lt (before.pastWs now pass) (createdAt ▸ alive)

theorem sweepingInitial (u : Setup) (h b : Uuid) (kpsNow wsNow : Nat) (token : String) :
    Sweeping u h b [] (System.initial kpsNow wsNow token) := by
  refine ⟨ownedInitial u kpsNow wsNow token,datedInitial kpsNow wsNow token,fun now mem => ?_,fun now mem => ?_,
    fun kem mem => ?_,fun binding mem => ?_⟩ <;> cases mem

/- After any run in which nobody has destroyed or purged the pair, the answer is 204 exactly
when both records are still stored: no sweep of either registry came after the deadline of
its record, and the KPS is still in the boot that made the key. -/
theorem destroyExpired {kpsNow wsNow : Nat} {token : String} {ls : List Label} {kem : KemBirth} {binding : BindingBirth}
    {body : Body DestroyRequest}
    (run : Along (step u) (Unforced h b) (System.initial kpsNow wsNow token) ls s)
    (mapped : s.kemToBindingMap.lookup h = some b) (kemMem : kem ∈ s.kems) (kemId : kem.record.id = h)
    (bindingMem : binding ∈ s.bindings) (bindingId : binding.record.id = b)
    (parsed : destroyParse u.x body = .ok h) :
    let out := handleDestroy u.x (destroyThrough u.mode) WsCore.destroyBindingKey s.kps s.ws s.kemToBindingMap body
    (out.1.status = 204 ∧ out.2.2.2.lookup h = none) ↔
      kem.boot = s.boot ∧ UnsweptKps ls kem.record ∧ UnsweptWs ls binding.record := by
  intro out
  have sweeping := alongHistory (fun _ _ _ _ before allowed taken => sweepingStep before allowed (stepMove taken)) run
    (sweepingInitial u h b kpsNow wsNow token)
  have kemStored := sweeping.kem kem kemMem kemId
  have bindingStored := sweeping.binding binding bindingMem bindingId
  have same : out = _ := handledMapped parsed mapped
  have unmapped : out.2.2.2.lookup h = none := by
    rw [same]
    exact AList.lookup_erase h _
  have noContent : out.1.status = 204 ↔ (s.kps.lookup h).isSome = true ∧ (s.ws.lookup b).isSome = true := by
    rw [same,destroyAnswerNoContent,destroyedThrough,WsCore.destroyedBinding]
    simp only [ite_eq_left_iff,reduceCtorEq,imp_false,not_not]
  rw [noContent,kemStored,bindingStored]
  exact ⟨fun both => ⟨both.1.1.1,both.1.1.2,both.1.2⟩,fun all => ⟨⟨⟨all.1,all.2.1⟩,all.2.2⟩,unmapped⟩⟩

end

def pairExpires : List Label := Standin.generating 0 1 2 ++ [.tick 3600000000000 3600000000000]

def pairSwept : List Label := pairExpires ++ [.reapKps 3600000000000]

theorem destroyExpiredUnswept :
    let s := Standin.after pairExpires
    let out := handleDestroy Standin.externals (destroyThrough .vmEmulated) WsCore.destroyBindingKey s.kps s.ws
      s.kemToBindingMap destroySecond
    getKey s.kps s.kpsNow 2 = none ∧ getKey s.ws s.wsNow 1 = none ∧ out.1.status = 204 ∧ out.2.2.2.lookup 2 = none := by
  intro s out
  have run : Along (step Standin.setup) (Unforced 2 1) Standin.start pairExpires s := alongGetD (by decide +kernel)
  have ends : getKey s.kps s.kpsNow 2 = none ∧ getKey s.ws s.wsNow 1 = none ∧ s.kemToBindingMap.lookup 2 = some 1 ∧
      s.kems.map (fun kem => (kem.record.id,kem.boot)) = [(2,s.boot)] ∧
      s.bindings.map (fun binding => binding.record.id) = [1] := by decide +kernel
  obtain ⟨kemExpired,bindingExpired,mapped,kems,bindings⟩ := ends
  obtain ⟨kem,kemMem,kemSame⟩ := List.mem_map.mp (kems ▸ List.mem_cons_self)
  obtain ⟨binding,bindingMem,bindingId⟩ := List.mem_map.mp (bindings ▸ List.mem_cons_self)
  obtain ⟨kemId,kemBoot⟩ := Prod.mk.inj kemSame
  have parsed : destroyParse Standin.externals destroySecond = .ok 2 := by decide +kernel
  refine ⟨kemExpired,bindingExpired,(destroyExpired run mapped kemMem kemId bindingMem bindingId parsed).mpr
    ⟨kemBoot,fun now pass => ?_,fun now pass => ?_⟩⟩
  · simp [pairExpires,Standin.generating] at pass
  · simp [pairExpires,Standin.generating] at pass

theorem destroySweptNotFound :
    let s := Standin.after pairSwept
    let out := handleDestroy Standin.externals (destroyThrough .vmEmulated) WsCore.destroyBindingKey s.kps s.ws
      s.kemToBindingMap destroySecond
    Reachable Standin.setup s ∧ Along (step Standin.setup) (Unforced 2 1) Standin.start pairSwept s ∧
    s.kemToBindingMap.lookup 2 = some 1 ∧ s.kems.all (fun kem => decide (kem.record.deleteAfter ≤ s.kpsNow)) ∧
    s.bindings.all (fun binding => decide (binding.record.deleteAfter ≤ s.wsNow)) ∧
    ¬ (out.1.status = 204 ∧ out.2.2.2.lookup 2 = none) ∧ out.1.status = 404 := by
  intro s out
  have ends : s.kemToBindingMap.lookup 2 = some 1 ∧ s.kems.all (fun kem => decide (kem.record.deleteAfter ≤ s.kpsNow)) ∧
      s.bindings.all (fun binding => decide (binding.record.deleteAfter ≤ s.wsNow)) ∧ out.1.status = 404 := by
    decide +kernel
  obtain ⟨mapped,kems,bindings,status⟩ := ends
  refine ⟨Standin.afterReachable pairSwept (by decide +kernel),alongGetD (by decide +kernel),mapped,kems,bindings,
    fun answered => ?_,status⟩
  rw [status] at answered
  exact absurd answered.1 (by decide)

end KeyProtection
