import Mathlib.Data.List.Induction
import Mathlib.Data.List.Nodup
import Mathlib.Logic.Function.Basic
import Mathlib.Order.Lattice
import KeyProtection.Lib.Table

/-! Maps whose values carry a key and a deadline. The abstract side is the history
of insertions and removals together with a clock; the physical side is a table in
which expired values may still lie and from which a sweep with an old clock reading
may remove them. The two are compared through what a reader can see. -/
namespace KeyProtection.Lib.TtlMap

variable {K V T : Type}

inductive Event (K V : Type) where
  | add (v : V)
  | remove (k : K)
  | clear
  deriving DecidableEq, Repr

def Present (key : V → K) (history : List (Event K V)) (v : V) : Prop :=
  ∃ before after, history = before ++ .add v :: after ∧
    ∀ e ∈ after, e ≠ .remove (key v) ∧ e ≠ .clear

def added : List (Event K V) → List V
  | [] => []
  | .add v :: rest => v :: added rest
  | _ :: rest => added rest

theorem addedAppend (left right : List (Event K V)) : added (left ++ right) = added left ++ added right := by
  induction left with
  | nil => rfl
  | cons e rest ih => cases e <;> simp [added,ih]

theorem presentAdded {key : V → K} {history v} (h : Present key history v) : v ∈ added history := by
  obtain ⟨before,after,rfl,_⟩ := h
  simp [addedAppend,added]

theorem presentEarlier {key : V → K} {first second v} (distinct : ((added (first ++ second)).map key).Nodup)
    (inserted : v ∈ added first) (h : Present key (first ++ second) v) : Present key first v := by
  obtain ⟨before,after,split,quiet⟩ := h
  rcases List.append_eq_append_iff.mp split with ⟨mid,rfl,tail⟩ | ⟨mid,rfl,tail⟩
  · -- The insertion lies in the second part, so the key would occur twice.
    rw [tail,addedAppend,addedAppend,added,List.map_append] at distinct
    have apart := (List.nodup_append.mp distinct).2.2 (key v) (List.mem_map.mpr ⟨v,inserted,rfl⟩) (key v)
      (by simp)
    exact absurd rfl apart
  · cases mid with
    | nil =>
      simp only [List.nil_append] at tail
      subst tail
      rw [addedAppend,added,List.map_append] at distinct
      have apart := (List.nodup_append.mp distinct).2.2 (key v) (List.mem_map.mpr ⟨v,inserted,rfl⟩) (key v)
        (by simp)
      exact absurd rfl apart
    | cons e mid =>
      simp only [List.cons_append,List.cons.injEq] at tail
      obtain ⟨rfl,rfl⟩ := tail
      exact ⟨before,mid,rfl,fun e mem => quiet e (List.mem_append_left _ mem)⟩

theorem presentSnoc {key : V → K} {history : List (Event K V)} {e : Event K V} {v : V} :
    Present key (history ++ [e]) v ↔
      (e = .add v) ∨ (Present key history v ∧ e ≠ .remove (key v) ∧ e ≠ .clear) := by
  constructor
  · intro present
    obtain ⟨before,after,split,quiet⟩ := present
    rcases List.eq_nil_or_concat after with rfl | ⟨init,last,rfl⟩
    · exact .inl (List.append_inj' split rfl |>.2 |> List.cons.inj |>.1)
    · rw [List.concat_eq_append,← List.cons_append,← List.append_assoc] at split
      obtain ⟨same,lastEq⟩ := List.append_inj' split rfl
      cases (List.cons.inj lastEq).1
      refine .inr ⟨⟨before,init,same,fun x mem => quiet x (by simp [mem])⟩,quiet e (by simp)⟩
  · intro cause
    obtain rfl | ⟨⟨before,after,rfl,quiet⟩,noRemove,noClear⟩ := cause
    · exact ⟨history,[],rfl,by simp⟩
    · refine ⟨before,after ++ [e],by simp,fun x mem => ?_⟩
      rcases List.mem_append.mp mem with inside | last
      · exact quiet x inside
      · cases List.mem_singleton.mp last
        exact ⟨noRemove,noClear⟩

section Logical
variable [DecidableEq K]

/- The map that the history describes, with no expiry. -/
def apply (key : V → K) (m : K → Option V) : Event K V → K → Option V
  | .add v => Function.update m (key v) (some v)
  | .remove k => Function.update m k none
  | .clear => fun _ => none

def logical (key : V → K) (history : List (Event K V)) : K → Option V :=
  history.foldl (apply key) (fun _ => none)

theorem logicalAppend (key : V → K) (history : List (Event K V)) (e : Event K V) :
    logical key (history ++ [e]) = apply key (logical key history) e := by
  simp [logical]

theorem applyPresent {key : V → K} {history : List (Event K V)} {e : Event K V} {m : K → Option V}
    (distinct : ((added (history ++ [e])).map key).Nodup)
    (holds : ∀ k v, m k = some v ↔ Present key history v ∧ key v = k) (k : K) (v : V) :
    apply key m e k = some v ↔ Present key (history ++ [e]) v ∧ key v = k := by
  rw [addedAppend,List.map_append] at distinct
  rw [presentSnoc]
  cases e with
  | add w =>
    by_cases same : k = key w
    · subst same
      simp only [apply,Function.update_self,Option.some.injEq,Event.add.injEq]
      constructor
      · intro values
        subst values
        exact ⟨.inl rfl,rfl⟩
      · intro present
        obtain ⟨values | ⟨earlier,_⟩,keyEq⟩ := present
        · exact values
        · have apart := (List.nodup_append.mp distinct).2.2 (key v)
            (List.mem_map.mpr ⟨v,presentAdded earlier,rfl⟩) (key w) (by simp [added])
          exact absurd keyEq apart
    · simp only [apply,Function.update_of_ne same,holds,Event.add.injEq,ne_eq]
      constructor
      · intro present
        exact ⟨.inr ⟨present.1,by simp,by simp⟩,present.2⟩
      · intro present
        obtain ⟨values | ⟨earlier,_⟩,keyEq⟩ := present
        · subst values
          exact absurd keyEq.symm same
        · exact ⟨earlier,keyEq⟩
  | remove gone =>
    by_cases same : k = gone
    · subst same
      simp only [apply,Function.update_self,reduceCtorEq,false_iff]
      intro present
      obtain ⟨absurd | ⟨_,kept,_⟩,keyEq⟩ := present
      · cases absurd
      · exact kept (congrArg Event.remove keyEq.symm)
    · simp only [apply,Function.update_of_ne same,holds]
      constructor
      · intro present
        obtain ⟨earlier,keyEq⟩ := present
        subst keyEq
        exact ⟨.inr ⟨earlier,by simpa using Ne.symm same,by simp⟩,rfl⟩
      · intro present
        obtain ⟨absurd | ⟨earlier,_⟩,keyEq⟩ := present
        · cases absurd
        · exact ⟨earlier,keyEq⟩
  | clear =>
    simp only [apply,reduceCtorEq,false_or,false_iff]
    intro present
    exact present.1.2.2 rfl

theorem logicalPresent {key : V → K} {history : List (Event K V)} (distinct : ((added history).map key).Nodup)
    (k : K) (v : V) : logical key history k = some v ↔ Present key history v ∧ key v = k := by
  induction history using List.reverseRecOn generalizing k v with
  | nil =>
    constructor
    · intro absurd
      simp [logical] at absurd
    · intro present
      obtain ⟨⟨before,after,split,_⟩,_⟩ := present
      simp at split
  | append_singleton history e ih =>
    have earlier : ((added history).map key).Nodup := by
      rw [addedAppend,List.map_append] at distinct
      exact (List.nodup_append.mp distinct).1
    rw [logicalAppend]
    exact applyPresent distinct (ih earlier) k v

end Logical

section Physical
variable [DecidableEq K] [LinearOrder T]

def visible (deadline : V → T) (time : T) (slot : Option V) : Option V :=
  slot.filter (fun v => decide (time < deadline v))

theorem visibleSome {deadline : V → T} {time : T} {slot : Option V} {v : V} :
    visible deadline time slot = some v ↔ slot = some v ∧ time < deadline v := by
  simp [visible,Option.filter_eq_some_iff]

/- From `now` on, no reader can tell the table and the described map apart. -/
def Agrees (deadline : V → T) (now : T) (table : Table K V) (m : K → Option V) : Prop :=
  ∀ k time, now ≤ time → visible deadline time (table.lookup k) = visible deadline time (m k)

variable {deadline : V → T} {now : T} {table : Table K V} {m : K → Option V}

theorem agreesLater {later : T} (h : Agrees deadline now table m) (order : now ≤ later) :
    Agrees deadline later table m :=
  fun k time bound => h k time (order.trans bound)

theorem agreesAdd (key : V → K) (h : Agrees deadline now table m) (v : V) :
    Agrees deadline now (table.insert (key v) v) (apply key m (.add v)) := by
  intro k time bound
  rw [Table.lookupInsert]
  by_cases same : k = key v
  · simp [apply,same]
  · simpa [apply,same] using h k time bound

theorem agreesRemove (key : V → K) (h : Agrees deadline now table m) (gone : K) :
    Agrees deadline now (table.erase gone) (apply key m (.remove gone)) := by
  intro k time bound
  rw [Table.lookupErase]
  by_cases same : k = gone
  · simp [apply,same]
  · simpa [apply,same] using h k time bound

theorem agreesClear (key : V → K) (m : K → Option V) :
    Agrees deadline now (∅ : Table K V) (apply key m .clear) := by
  intro k time _
  rfl

theorem agreesSweep {sampled : T} (h : Agrees deadline now table m) (past : sampled ≤ now) :
    Agrees deadline now (Table.retain (fun v => decide (sampled < deadline v)) table) m := by
  intro k time bound
  rw [Table.lookupRetain,← h k time bound]
  cases slot : table.lookup k with
  | none => rfl
  | some v =>
    by_cases alive : time < deadline v
    · have kept : sampled < deadline v := (past.trans bound).trans_lt alive
      simp [Option.filter,kept]
    · by_cases kept : sampled < deadline v <;> simp [visible,Option.filter,kept,alive]

end Physical
end KeyProtection.Lib.TtlMap
