import ServiceContract.Proofs.Operation.BuiltIn

/-!
# Contracts for different targets

The target decides which built-in types a contract mentions, and nothing else: whether there is a
contract, what keeps it from being made, its methods with their parameters and routing, its
declarations with their fields and members, and the order of all of them are the same for every
target.

## Main results

* `Contract.build_withTarget`: contracts for two targets are the same, up to built-in types.
-/

namespace ServiceContract

namespace Contract

/-- Sessions that are the same up to built-in types make up the same contract, up to built-in
types. -/
theorem withBuiltIn_ofSession {symbol : String} {s t : Session} (h : s.Resembles symbol t)
    (name title version : String) (isInterface : Bool) :
    (ofSession name title version isInterface s).withBuiltIn symbol =
      (ofSession name title version isInterface t).withBuiltIn symbol := by
  simp only [ofSession, withBuiltIn, h.methods, h.declarations]

/-- Sessions that are left behind by twins make up the same contract, up to built-in types. -/
theorem map_withBuiltIn_of_twins {symbol : String} {m m' : Build Unit}
    (h : Build.Twins (Session.Resembles symbol) Eq m m') (start : Session)
    (name title version : String) (isInterface : Bool) :
    (match m start with
      | (.error fault, s) => (Except.error fault, s.events)
      | (.ok (), s) => (.ok (ofSession name title version isInterface s), s.events)).1.map
        (withBuiltIn symbol) =
      (match m' start with
        | (.error fault, s) => (Except.error fault, s.events)
        | (.ok (), s) => (.ok (ofSession name title version isInterface s), s.events)).1.map
          (withBuiltIn symbol) := by
  obtain ⟨hresult, hsession⟩ := h (.refl symbol start)
  rcases hrun : m start with ⟨result, s⟩
  rcases hrun' : m' start with ⟨result', t⟩
  rw [hrun, hrun'] at hresult hsession
  cases hresult with
  | error fault => rfl
  | ok => exact congrArg Except.ok (withBuiltIn_ofSession hsession name title version isInterface)

/-- For two targets, the same fault keeps the contract of a document from being made, or the
contracts are the same with one symbol in place of all built-in types. -/
theorem build_withTarget (doc : Document) (options : Options) (target target' : Target)
    (symbol : String) :
    (build doc { options with target }).map (withBuiltIn symbol) =
      (build doc { options with target := target' }).map (withBuiltIn symbol) := by
  have htables : Resolver.Resembles { doc, primitives := target.primitives }
      { doc, primitives := target'.primitives } := ⟨rfl, Target.lookup_matches target target'⟩
  unfold build buildFrom
  dsimp only
  split
  · rfl
  · refine map_withBuiltIn_of_twins (.lift_bind_right fun paths => ?_) _ _ _ _ _
    exact buildPaths_twins htables options.includeResponse paths

end Contract

end ServiceContract
