import KeyProtection.Ownership
import KeyProtection.Standin

/-! What the two attestations say about one handle. The claims may be asked for at any two
times, in either service, with restarts, cleanups and other requests in between. -/
namespace KeyProtection
open Lib

theorem namesAgree {x : Externals} {kem binding : KeyRecord} {left right : HpkePublicKey} (bound : Bound kem binding)
    (first : NamesBinding x binding left) (second : NamesBound x kem right) : left = right := by
  obtain ⟨suite,kemKey,bindingKey,kemSpec,bindingSpec⟩ := bound
  obtain ⟨suite',key,spec,pubKey,decoded⟩ := first
  obtain ⟨suite'',_,key',spec',pubKey',decoded'⟩ := second
  cases bindingSpec.symm.trans spec
  cases kemSpec.symm.trans spec'
  have algorithms : left.algorithm = right.algorithm := Except.ok.inj (decoded.symm.trans decoded')
  cases left
  cases right
  simp only [HpkePublicKey.mk.injEq]
  exact ⟨algorithms,pubKey.trans pubKey'.symm⟩

theorem claimsAgree {u s} (owned : Owned u s) {i j : Nat} {left right : Request} {key bound : HpkePublicKey}
    {kemAlgorithm kemPubKey remaining} (first : Told u s i left (.claims (.vmBindingClaims key)))
    (second : Told u s j right (.claims (.vmKeyClaims kemAlgorithm kemPubKey bound remaining)))
    (handles : left.handle u.x = right.handle u.x) : key = bound := by
  obtain ⟨k,b,handle,settled,binding,mem,id,names⟩ := first
  obtain ⟨k',handle',kem,kemMem,kemId,names'⟩ := second
  have same : k' = k := Option.some.inj (handle'.symm.trans (handles.symm.trans handle))
  exact namesAgree (settledBound owned settled kemMem (kemId.trans same) mem id) names names'

theorem bindingAgreement {u : Setup} {s : System} (reach : Reachable u s) :
    (∀ k b kem binding, s.kemToBindingMap.lookup k = some b → s.kps.lookup k = some kem →
      s.ws.lookup b = some binding → ∃ suite kemKey bindingKey,
        kem.metadata.spec = .kemWithBindingPub suite kemKey bindingKey ∧
        binding.metadata.spec = .binding suite bindingKey) ∧
    (∀ k k' b, s.kemToBindingMap.lookup k = some b → s.kemToBindingMap.lookup k' = some b → k = k') ∧
    (∀ (i j : Nat) (th th' : Thread) key bound kemAlgorithm kemPubKey remaining,
      s.threads[i]? = some th → s.threads[j]? = some th' →
      th.task = .answered (.claims (.vmBindingClaims key)) →
      th'.task = .answered (.claims (.vmKeyClaims kemAlgorithm kemPubKey bound remaining)) →
      th.request.handle u.x = th'.request.handle u.x → key = bound) := by
  have owned := ownedReachable reach
  refine ⟨fun k b kem binding mapped kemHere bindingHere => ?_,fun k k' b left right => ?_,?_⟩
  · obtain ⟨kemId,birth,mem,same⟩ := owned.kps k kem kemHere
    obtain ⟨bindingId,birth',mem',same'⟩ := owned.ws b binding bindingHere
    subst same
    subst same'
    exact settledBound owned (owned.map k b mapped) mem kemId mem' bindingId
  · exact settledKem owned (owned.map k b left) (owned.map k' b right)
  · intro i j th th' key bound kemAlgorithm kemPubKey remaining here there first second handles
    have told : Told u s i th.request (.claims (.vmBindingClaims key)) := by
      have task := (owned.threads i th here).task
      rw [first] at task
      exact task
    have told' : Told u s j th'.request (.claims (.vmKeyClaims kemAlgorithm kemPubKey bound remaining)) := by
      have task := (owned.threads j th' there).task
      rw [second] at task
      exact task
    exact claimsAgree owned told told' handles

def attesting : List Label :=
  Standin.generating 0 1 2 ++
    [.arrive (.getKeyClaims ⟨uuidString 2,.vmProtectionBinding⟩),.advance 1 (Standin.entropy 0),
      .advance 1 (Standin.entropy 0),.advance 1 (Standin.entropy 0),
      .arrive (.getKeyClaims ⟨uuidString 2,.vmProtectionKey⟩),.advance 2 (Standin.entropy 0),
      .serve 2 (Standin.entropy 0),.receive 2,.advance 2 (Standin.entropy 0)]

theorem bindingAgreementAttested :
    (Standin.after attesting).kemToBindingMap.lookup 2 = some 1 ∧
    ∃ th th' key bound kemAlgorithm kemPubKey remaining,
      (Standin.after attesting).threads[1]? = some th ∧ (Standin.after attesting).threads[2]? = some th' ∧
      th.task = .answered (.claims (.vmBindingClaims key)) ∧
      th'.task = .answered (.claims (.vmKeyClaims kemAlgorithm kemPubKey bound remaining)) ∧ key = bound := by
  have reach := Standin.afterReachable attesting (by decide +kernel)
  have left : (Standin.after attesting).threads[1]?.map (fun th => (th.request.handle Standin.externals,th.task)) =
      some (some 2,.answered (.claims (.vmBindingClaims ⟨⟨1,1,1⟩,Standin.pad32 [1]⟩))) := by decide +kernel
  have right : (Standin.after attesting).threads[2]?.map (fun th => (th.request.handle Standin.externals,th.task)) =
      some (some 2,.answered (.claims (.vmKeyClaims 1 (Standin.pad32 [2]) ⟨⟨1,1,1⟩,Standin.pad32 [1]⟩
        3600000000000))) := by decide +kernel
  obtain ⟨th,here,first⟩ := Option.map_eq_some_iff.mp left
  obtain ⟨th',there,second⟩ := Option.map_eq_some_iff.mp right
  obtain ⟨handle,task⟩ := Prod.mk.inj first
  obtain ⟨handle',task'⟩ := Prod.mk.inj second
  exact ⟨by decide +kernel,th,th',_,_,_,_,_,here,there,task,task',
    (bindingAgreement reach).2.2 1 2 th th' _ _ _ _ _ here there task task' (handle.trans handle'.symm)⟩

end KeyProtection
