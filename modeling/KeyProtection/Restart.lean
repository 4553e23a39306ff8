import KeyProtection.Ownership
import KeyProtection.Standin

/-! What a heartbeat that has heard from a KPS boot says about the handle map. A cleanup is
started by comparing tokens, so the first token ever received starts none, and the map may
be written by a generate request whose KEM key is older than the last cleanup. A handle that
is mapped for neither reason is of the last boot heard of or a later one. -/
namespace KeyProtection
open Lib Lib.Run KeyRegistry

def Beat.received : Beat → Option Receipt
  | .locking received => received
  | .destroying received => received
  | .resetting received => received
  | .returning receipt => some receipt
  | _ => none

def Beat.purging : Beat → Bool
  | .locking _ => true
  | .destroying _ => true
  | .resetting _ => true
  | _ => false

def BornSince (s : System) (boot : Nat) (k : Uuid) : Prop := ∃ kem ∈ s.kems, kem.record.id = k ∧ boot ≤ kem.boot

instance (s : System) (boot : Nat) (k : Uuid) : Decidable (BornSince s boot k) :=
  inferInstanceAs (Decidable (∃ kem ∈ s.kems, kem.record.id = k ∧ boot ≤ kem.boot))

/- The mapping of k is stored while a cleanup is on its way to the map, or when k is of the
last boot heard of or a later one. Nor is k mapped and of an earlier boot when the first
token arrives. -/
def Covered (k : Uuid) (s : System) : Label → Prop
  | .advance i _ => ∀ th ∈ s.threads[i]?, ∀ stored ∈ th.task.storing, stored.kemUUID = k →
      s.beat.purging = true ∨ ∀ boot ∈ s.seen, BornSince s boot k
  | .beat .receives => s.cachedToken = "" → (s.kemToBindingMap.lookup k).isSome → ∀ receipt ∈ s.beat.arriving,
      BornSince s receipt.boot k
  | _ => True

instance (k : Uuid) (s : System) : (l : Label) → Decidable (Covered k s l)
  | .advance i _ => inferInstanceAs (Decidable (∀ th ∈ s.threads[i]?, ∀ stored ∈ th.task.storing, stored.kemUUID = k →
      s.beat.purging = true ∨ ∀ boot ∈ s.seen, BornSince s boot k))
  | .beat .receives => inferInstanceAs (Decidable (s.cachedToken = "" → (s.kemToBindingMap.lookup k).isSome →
      ∀ receipt ∈ s.beat.arriving, BornSince s receipt.boot k))
  | .arrive _ | .serve _ _ | .receive _ | .replay _ _ | .fail _ _ | .tick _ _ | .reapKps _ | .reapWs _ | .restart _
  | .beat .begins | .beat .kpsAnswers | .beat .fails | .beat .timerFires | .beat .cancelled | .beat .locks
  | .beat .destroysAll | .beat .resets | .beat .returns | .beat .stops => .isTrue trivial

structure Heard (u : Setup) (s : System) : Prop where
  owned : Owned u s
  distinct : (s.tokens.map Receipt.token).Nodup
  given : ∀ receipt ∈ s.tokens, receipt.token ≠ ""
  current : ⟨s.boot,s.token⟩ ∈ s.tokens
  arriving : ∀ receipt, s.beat.arriving = some receipt → receipt ∈ s.tokens
  received : ∀ receipt, s.beat.received = some receipt → receipt ∈ s.tokens ∧ s.seen = some receipt.boot
  cached : s.beat.received = none → (s.cachedToken = "" ∧ s.seen = none) ∨
    ∃ receipt ∈ s.tokens, receipt.token = s.cachedToken ∧ s.seen = some receipt.boot

def Fenced (k : Uuid) (s : System) : Prop :=
  s.beat.purging = false → ∀ boot, s.seen = some boot → (s.kemToBindingMap.lookup k).isSome → BornSince s boot k

section
variable {u : Setup} {s t : System} {l : Label} {k : Uuid}

theorem bornSinceGrows {boot} (grows : Grows s t) (born : BornSince s boot k) : BornSince t boot k := by
  obtain ⟨kem,mem,rest⟩ := born
  exact ⟨kem,grows.kems kem mem,rest⟩

theorem heardKeep (heard : Heard u s) (owned : Owned u t) (beat : t.beat = s.beat) (cachedToken : t.cachedToken = s.cachedToken)
    (boot : t.boot = s.boot) (token : t.token = s.token) (tokens : t.tokens = s.tokens) (seen : t.seen = s.seen) :
    Heard u t := by
  refine ⟨owned,tokens ▸ heard.distinct,tokens ▸ heard.given,?_,?_,?_,?_⟩
  · rw [boot,token,tokens]
    exact heard.current
  · rw [beat,tokens]
    exact heard.arriving
  · rw [beat,tokens,seen]
    exact heard.received
  · rw [beat,tokens,seen,cachedToken]
    exact heard.cached

theorem tokenSame (heard : Heard u s) {a b : Receipt} (left : a ∈ s.tokens) (right : b ∈ s.tokens)
    (tokens : a.token = b.token) : a = b := List.inj_on_of_nodup_map heard.distinct left right tokens

theorem heardReceives {backoff receipt} (heard : Heard u s) (owned : Owned u t) (stage : s.beat = .answered backoff receipt)
    (after : t = {s with
      beat := if s.cachedToken ≠ "" ∧ s.cachedToken ≠ receipt.token then .locking (some receipt)
        else .returning receipt,
      seen := some receipt.boot}) : Heard u t := by
  have given := heard.arriving receipt (by rw [stage]; rfl)
  subst after
  refine ⟨owned,heard.distinct,heard.given,heard.current,fun other same => ?_,fun other same => ?_,fun absurd => ?_⟩ <;>
    simp only at *
  · split at same <;> exact (nomatch same)
  · split at same <;>
      · cases Option.some.inj same
        exact ⟨given,rfl⟩
  · split at absurd <;> exact (nomatch absurd)

theorem heardBeaten {pulse next cached} (heard : Heard u s) (owned : Owned u t)
    (taken : Beaten u s.cachedToken ⟨s.boot,s.token⟩ s.beat pulse next cached)
    (after : t = {s with beat := next, cachedToken := cached}) : Heard u t := by
  obtain ⟨distinct,given,current⟩ := And.intro heard.distinct (And.intro heard.given heard.current)
  have arriving := heard.arriving
  have received := heard.received
  have idle := heard.cached
  subst after
  generalize s.beat = before at taken arriving received idle
  cases taken with
  | kpsAnswers =>
    refine ⟨owned,distinct,given,current,fun receipt same => ?_,received,idle⟩
    cases Option.some.inj same
    exact current
  | dropped => exact ⟨owned,distinct,given,current,fun _ absurd => (nomatch absurd),received,idle⟩
  | @returns receipt =>
    obtain ⟨mem,seen⟩ := received receipt rfl
    exact ⟨owned,distinct,given,current,arriving,fun _ absurd => (nomatch absurd),
      fun _ => .inr ⟨receipt,mem,rfl,seen⟩⟩
  | _ => exact ⟨owned,distinct,given,current,arriving,received,idle⟩

theorem heardStep (heard : Heard u s) (move : Move u s l t) : Heard u t := by
  have owned := ownedStep heard.owned move
  cases move with
  | heard stage => exact heardReceives heard owned stage rfl
  | beaten keeps unreset unheard taken => exact heardBeaten heard owned (beaten keeps unreset unheard taken) rfl
  | restarted given unused =>
    refine ⟨owned,List.nodup_cons.mpr ⟨unused,heard.distinct⟩,?_,List.mem_cons_self,?_,?_,?_⟩
    · intro receipt mem
      rcases List.mem_cons.mp mem with same | old
      · exact same ▸ given
      · exact heard.given receipt old
    · exact fun receipt arrives => List.mem_cons_of_mem _ (heard.arriving receipt arrives)
    · intro receipt arrived
      obtain ⟨mem,seen⟩ := heard.received receipt arrived
      exact ⟨List.mem_cons_of_mem _ mem,seen⟩
    · intro idle
      rcases heard.cached idle with first | ⟨receipt,mem,rest⟩
      · exact .inl first
      · exact .inr ⟨receipt,List.mem_cons_of_mem _ mem,rest⟩
  | purged stage =>
    have received := heard.received
    have idle := heard.cached
    rw [stage] at received idle
    exact ⟨owned,heard.distinct,heard.given,heard.current,fun _ absurd => (nomatch absurd),received,idle⟩
  | @reset received stage =>
    have arrived := heard.received
    have idle := heard.cached
    rw [stage] at arrived idle
    refine ⟨owned,heard.distinct,heard.given,heard.current,?_,?_,?_⟩
    · cases received <;> exact fun _ absurd => (nomatch absurd)
    · cases received <;> exact arrived
    · cases received <;> exact idle
  | _ => exact heardKeep heard owned rfl rfl rfl rfl rfl rfl

theorem heardInitial (u : Setup) (kpsNow wsNow : Nat) {token : String} (given : token ≠ "") :
    Heard u (System.initial kpsNow wsNow token) := by
  refine ⟨ownedInitial u kpsNow wsNow token,?_,?_,?_,?_,?_,?_⟩ <;>
    simp [System.initial,Beat.arriving,Beat.received,given]

/- A token that starts no cleanup is the first one, or comes from the last boot heard of. -/
theorem fencedReceives {backoff receipt} (heard : Heard u s) (fenced : Fenced k s) (allowed : Covered k s (.beat .receives))
    (stage : s.beat = .answered backoff receipt) (same : ¬ (s.cachedToken ≠ "" ∧ s.cachedToken ≠ receipt.token))
    (mapped : (s.kemToBindingMap.lookup k).isSome) : BornSince s receipt.boot k := by
  have arrives : s.beat.arriving = some receipt := by
    rw [stage]
    rfl
  by_cases first : s.cachedToken = ""
  · exact allowed first mapped receipt arrives
  · have again : s.cachedToken = receipt.token := by
      by_contra other
      exact same ⟨first,other⟩
    rcases heard.cached (by rw [stage]; rfl) with ⟨none,_⟩ | ⟨last,mem,token,seen⟩
    · exact absurd none first
    · cases tokenSame heard mem (heard.arriving receipt arrives) (token.trans again)
      exact fenced (by rw [stage]; rfl) _ seen mapped

theorem fencedStep (heard : Heard u s) (fenced : Fenced k s) (allowed : Covered k s l) (move : Move u s l t) :
    Fenced k t := by
  have grows := ownedGrows heard.owned move
  have kept : s.beat.purging = false → ∀ boot, s.seen = some boot → (s.kemToBindingMap.lookup k).isSome →
      BornSince t boot k := fun calm boot seen mapped => bornSinceGrows grows (fenced calm boot seen mapped)
  cases move with
  | @heard backoff receipt stage =>
    intro calm boot seen mapped
    cases Option.some.inj seen
    refine bornSinceGrows grows (fencedReceives heard fenced allowed stage (fun differs => ?_) mapped)
    simp only [if_pos differs] at calm
    contradiction
  | @beaten pulse out keeps unreset unheard taken =>
    have next := beaten keeps unreset unheard taken
    obtain ⟨beat,cached⟩ := out
    intro calm boot seen mapped
    refine kept ?_ boot seen mapped
    generalize s.beat = before at next
    cases next <;> first | rfl | contradiction
  | stored found stage free =>
    intro calm boot seen mapped
    simp only [Table.lookupInsert] at mapped
    split at mapped
    · rename_i same
      rcases allowed _ found _ (congrArg Task.storing stage) same.symm with purging | born
      · exact (nomatch purging.symm.trans calm)
      · exact bornSinceGrows grows (born boot seen)
    · exact kept calm boot seen mapped
  | unmapped found stage free =>
    intro calm boot seen mapped
    simp only [Table.lookupErase] at mapped
    split at mapped <;> try contradiction
    exact kept calm boot seen mapped
  | purged stage => exact fun calm => (nomatch calm)
  | reset stage => exact fun _ _ _ mapped => by simp at mapped
  | _ => exact kept

def Renewed (t : System) : Prop :=
  ∃ receipt, t.beat = .idle (some receipt) ∧ receipt ∈ t.tokens ∧ t.cachedToken = receipt.token ∧
    ∀ k b, t.kemToBindingMap.lookup k = some b → BornSince t receipt.boot k

theorem returnedFrom (taken : step u s (.beat .returns) = some t) :
    ∃ receipt, s.beat = .returning receipt ∧ t = {s with beat := .idle (some receipt), cachedToken := receipt.token} := by
  have move := stepMove taken
  cases move with
  | quiet found next => cases next with
    | resumed origin next => cases origin
  | @beaten _ out keeps unreset unheard next =>
    have returned := beaten keeps unreset unheard next
    obtain ⟨beat,cached⟩ := out
    generalize stage : s.beat = before at returned
    cases returned
    exact ⟨_,rfl,rfl⟩

theorem fencedAlong {kpsNow wsNow : Nat} {token : String} {ls : List Label} (given : token ≠ "")
    (run : Along (step u) (Covered k) (System.initial kpsNow wsNow token) ls s) : Fenced k s := by
  have both := @alongInvariant _ _ _ _ (fun s => Heard u s ∧ Fenced k s) _ _ _
    (fun _ _ _ before allowed taken => ⟨heardStep before.1 (stepMove taken),
      fencedStep before.1 before.2 allowed (stepMove taken)⟩) run
    ⟨heardInitial u kpsNow wsNow given,fun _ _ seen => (nomatch seen)⟩
  exact both.2

/- Only the mappings that are still there when the call returns have to be covered. -/
theorem heartbeatRenews {kpsNow wsNow : Nat} {token : String} {ls : List Label} (given : token ≠ "")
    (run : Steps (step u) (System.initial kpsNow wsNow token) ls s)
    (covered : ∀ k, (s.kemToBindingMap.lookup k).isSome →
      Along (step u) (Covered k) (System.initial kpsNow wsNow token) ls s)
    (returns : step u s (.beat .returns) = some t) : Renewed t := by
  have heard : Heard u s :=
    alongInvariant (fun _ _ _ before _ taken => heardStep before (stepMove taken)) run (heardInitial u kpsNow wsNow given)
  obtain ⟨receipt,stage,after⟩ := returnedFrom returns
  obtain ⟨mem,seen⟩ := heard.received receipt (by rw [stage]; rfl)
  have fence : ∀ k b, s.kemToBindingMap.lookup k = some b → BornSince s receipt.boot k := by
    intro k b mapped
    have there : (s.kemToBindingMap.lookup k).isSome := by rw [mapped]; rfl
    exact fencedAlong given (covered k there) (by rw [stage]; rfl) receipt.boot seen there
  subst after
  exact ⟨receipt,rfl,mem,rfl,fence⟩

end

def noticedRestart : List Label :=
  Standin.heartbeat ++ Standin.generating 0 1 2 ++ [.restart "boot-1"] ++ Standin.heartbeatPurging ++
    Standin.generating 1 3 4

theorem heartbeatRenewsNoticed :
    let s := Standin.after noticedRestart
    let t := Standin.onward s [.beat .returns]
    Renewed t ∧ t.boot = 1 ∧ t.kemToBindingMap.lookup 4 = some 3 := by
  intro s t
  have mapped : s.kemToBindingMap.keys = [4] := by decide +kernel
  have covered : ∀ k, (s.kemToBindingMap.lookup k).isSome →
      Along (step Standin.setup) (Covered k) (System.initial 0 0 "boot-0") noticedRestart s := by
    intro k there
    have mem : k ∈ s.kemToBindingMap.keys := AList.lookup_isSome.mp there
    rw [mapped] at mem
    cases List.mem_singleton.mp mem
    exact alongGetD (by decide +kernel)
  have returns : step Standin.setup s (.beat .returns) = some t := Standin.onwardStep (by decide +kernel)
  exact ⟨heartbeatRenews (by decide) (alongSteps (covered 4 (by decide +kernel))) covered returns,by decide +kernel,by decide +kernel⟩

def unnoticedRestart : List Label :=
  Standin.generating 0 1 2 ++ [.restart "boot-1"] ++ Standin.heartbeat

def overtakenStore : List Label :=
  Standin.heartbeat ++
    [.arrive Standin.generateRequest,.advance 0 (Standin.entropy 1),.serve 0 (Standin.entropy 2),.receive 0,
      .restart "boot-1"] ++
    Standin.heartbeatPurging ++ [.advance 0 (Standin.entropy 0),.beat .returns]

def KeepsStale (ls : List Label) : Prop :=
  (exec (step Standin.setup) Standin.start ls).isSome ∧ ls.getLast? = some (.beat .returns) ∧
    (Standin.after ls).beat = .idle (some ⟨1,"boot-1"⟩) ∧
    (Standin.after ls).kemToBindingMap.lookup 2 = some 1 ∧
    (∃ kem ∈ (Standin.after ls).kems, kem.record.id = 2 ∧ kem.boot = 0) ∧
    ¬ BornSince (Standin.after ls) 1 2

instance (ls : List Label) : Decidable (KeepsStale ls) := inferInstanceAs (Decidable (_ ∧ _))

theorem keepsStaleUnrenewed {ls : List Label} (stale : KeepsStale ls) : ¬ Renewed (Standin.after ls) := by
  obtain ⟨_,_,idle,mapped,_,old⟩ := stale
  intro renewed
  obtain ⟨receipt,beat,_,_,since⟩ := renewed
  cases beat.symm.trans idle
  exact old (since 2 1 mapped)

theorem heartbeatLeavesStale :
    (KeepsStale unnoticedRestart ∧ ¬ Renewed (Standin.after unnoticedRestart)) ∧
      (KeepsStale overtakenStore ∧ ¬ Renewed (Standin.after overtakenStore)) := by
  have unnoticed : KeepsStale unnoticedRestart := by decide +kernel
  have overtaken : KeepsStale overtakenStore := by decide +kernel
  exact ⟨⟨unnoticed,keepsStaleUnrenewed unnoticed⟩,⟨overtaken,keepsStaleUnrenewed overtaken⟩⟩

end KeyProtection
