import SimBus.Builtin.Standard
import SimBus.Proofs.EvalRules
import SimBus.Proofs.WellFormedValues
/-!
The standard functions keep their rules. On a well-formed argument of a type
that its rule admits, a function returns a well-formed value of the type that
the rule names, or fails for a reason that only the data gives.
-/

namespace SimBus

open EvalError (Expected)
open Eval (yields_pure yields_throw yields_bind yields_ofValue yields_lift)
open Value (Inhabits)

namespace Builtin

def Sound (b : Builtin) : Prop :=
  ∀ v ty, v.WellFormed → b.rule v.ty = some ty →
    (b.procedure v).Yields (fun result => result.Inhabits ty) Expected

theorem call_yields (b : Builtin) (sound : b.Sound) (v : Value) (argument result : Ty)
    (inhabits : v.Inhabits argument) (ruled : b.resultType argument = .ok result) :
    (b.call v).Yields (fun r => r.Inhabits result) Expected := by
  have admitted : b.rule v.ty = some result := by
    rw [inhabits.2]
    unfold resultType at ruled
    split at ruled
    · next found => exact (Except.ok.inj ruled) ▸ found
    · cases ruled
  unfold call
  rw [inhabits.2, ruled]
  refine yields_bind (sound v result inhabits.1 admitted) fun r returned => ?_
  simp only [returned.2, ↓reduceIte]
  exact yields_pure r returned

theorem resultType_of_rule (b : Builtin) (argument result : Ty)
    (ruled : b.rule argument = some result) : b.resultType argument = .ok result := by
  rw [resultType, ruled]

theorem call_returns (b : Builtin) (argument result : Value) (ty : Ty)
    (ruled : b.rule argument.ty = some ty) (returned : b.procedure argument = pure result)
    (typed : result.ty = ty) : b.call argument = pure result := by
  unfold call
  rw [resultType_of_rule b argument.ty ty ruled, returned]
  exact if_pos typed

theorem call_fails (b : Builtin) (argument : Value) (ty : Ty) (e : EvalError)
    (ruled : b.rule argument.ty = some ty) (failed : b.procedure argument = throw e) :
    b.call argument = throw e := by
  unfold call
  rw [resultType_of_rule b argument.ty ty ruled, failed]
  rfl

theorem keys_sound : keys.Sound := by
  intro v ty wellFormed ruled
  simp only [keys] at ruled ⊢
  split at ruled
  · next key value typed =>
      obtain rfl := Option.some.inj ruled
      obtain ⟨entries, rfl, held⟩ := Value.dict_of_inhabits v key value ⟨wellFormed, typed⟩
      refine yields_pure _ (Value.inhabits_array key _ ?_)
      intro item member
      obtain ⟨entry, inEntries, rfl⟩ := List.mem_map.mp member
      exact (held.typed entry inEntries).1
  · cases ruled

theorem pairKeys_sound : pairKeys.Sound := by
  intro v ty wellFormed ruled
  simp only [pairKeys] at ruled ⊢
  split at ruled
  · next key value typed =>
      split at ruled
      · obtain rfl := Option.some.inj ruled
        obtain ⟨a, b, rfl, first, second⟩ := Value.pair_of_inhabits v _ _ ⟨wellFormed, typed⟩
        obtain ⟨keys, rfl, keysTyped⟩ := Value.array_of_inhabits a key first
        obtain ⟨values, rfl, valuesTyped⟩ := Value.array_of_inhabits b value second
        by_cases paired : keys.length = values.length
        · simp only [paired, ↓reduceIte]
          obtain ⟨dict, made, inhabits⟩ := Value.mkDict_ok key value (keys.zip values)
            fun pair member => ⟨keysTyped _ (List.of_mem_zip member).1,
              valuesTyped _ (List.of_mem_zip member).2⟩
          rw [made]
          exact yields_pure dict inhabits
        · simp only [paired, ↓reduceIte]
          exact yields_throw _ (.unpaired paired)
      · cases ruled
  · cases ruled

theorem freshPath_yields (path : String) :
    (Eval.ofValue (Value.mkObjectPath path)).Yields (fun v => v.Inhabits .objectPath) Expected := by
  refine yields_ofValue _ (Value.mkObjectPath_ok path) fun e refused => ?_
  unfold Value.mkObjectPath at refused
  split at refused
  · cases refused
  · next invalid =>
      obtain rfl := Except.error.inj refused
      exact .invalidFreshPath (by simpa using invalid)

theorem freshObjectPath_sound : freshObjectPath.Sound := by
  intro v ty _ ruled
  simp only [freshObjectPath] at ruled ⊢
  split at ruled
  · obtain rfl := Option.some.inj ruled
    refine yields_bind (yields_lift Draws.randomWord fun _ _ => trivial) fun w _ => ?_
    refine yields_bind (freshPath_yields _) fun path typed => ?_
    refine yields_pure _ ⟨(Value.wellFormed_tuple_iff _).mpr ?_, ?_⟩
    · simp [typed.1, Value.WellFormed]
    · rw [Value.ty_tuple]
      simp [typed.2, Value.ty]
  · cases ruled

theorem inArray_sound : inArray.Sound := by
  intro v ty wellFormed ruled
  simp only [inArray] at ruled ⊢
  split at ruled
  · next element item typed =>
      split at ruled
      · obtain rfl := Option.some.inj ruled
        obtain ⟨a, b, rfl, first, -⟩ := Value.pair_of_inhabits v _ _ ⟨wellFormed, typed⟩
        obtain ⟨items, rfl, -⟩ := Value.array_of_inhabits a element first
        exact yields_pure _ (Value.inhabits_bool _)
      · cases ruled
  · cases ruled

theorem position_yields (index : Value) (bound length : Nat) :
    (position index bound length).Yields (fun i => i < bound) Expected := by
  simp only [position]
  split
  · next inRange => exact yields_pure _ (by omega)
  · exact yields_throw _ (.indexOutOfRange _ length)

theorem arrayGet_sound : arrayGet.Sound := by
  intro v ty wellFormed ruled
  simp only [arrayGet] at ruled ⊢
  split at ruled
  · next element kind typed =>
      obtain rfl := Option.some.inj ruled
      obtain ⟨a, index, rfl, first, -⟩ := Value.pair_of_inhabits v _ _ ⟨wellFormed, typed⟩
      obtain ⟨items, rfl, itemsTyped⟩ := Value.array_of_inhabits a _ first
      refine yields_bind (position_yields index items.length items.length) fun i below => ?_
      rw [List.getElem?_eq_getElem below]
      exact yields_pure _ (itemsTyped _ (List.getElem_mem below))
  · cases ruled

theorem arrayInsert_sound : arrayInsert.Sound := by
  intro v ty wellFormed ruled
  simp only [arrayInsert] at ruled ⊢
  split at ruled
  · next element kind item typed =>
      split at ruled
      · next same =>
          obtain rfl := Option.some.inj ruled
          obtain ⟨a, index, b, rfl, first, -, third⟩ :=
            Value.triple_of_inhabits v _ _ _ ⟨wellFormed, typed⟩
          obtain ⟨items, rfl, itemsTyped⟩ := Value.array_of_inhabits a element first
          refine yields_bind (position_yields index (items.length + 1) items.length) fun i _ => ?_
          refine yields_pure _ (Value.inhabits_array element _ ?_)
          intro x member
          rcases List.mem_append.mp member with front | behind
          · exact itemsTyped x (List.mem_of_mem_take front)
          · rcases List.mem_cons.mp behind with rfl | back
            · exact same ▸ third
            · exact itemsTyped x (List.mem_of_mem_drop back)
      · cases ruled
  · cases ruled

theorem arrayRemove_sound : arrayRemove.Sound := by
  intro v ty wellFormed ruled
  simp only [arrayRemove] at ruled ⊢
  split at ruled
  · next element kind typed =>
      obtain rfl := Option.some.inj ruled
      obtain ⟨a, index, rfl, first, -⟩ := Value.pair_of_inhabits v _ _ ⟨wellFormed, typed⟩
      obtain ⟨items, rfl, itemsTyped⟩ := Value.array_of_inhabits a element first
      refine yields_bind (position_yields index items.length items.length) fun i _ => ?_
      exact yields_pure _ (Value.inhabits_array element _ fun x member =>
        itemsTyped x (List.mem_of_mem_eraseIdx member))
  · cases ruled

theorem dictGet_sound : dictGet.Sound := by
  intro v ty wellFormed ruled
  simp only [dictGet] at ruled ⊢
  split at ruled
  · next key value wanted typed =>
      split at ruled
      · obtain rfl := Option.some.inj ruled
        obtain ⟨a, b, rfl, first, -⟩ := Value.pair_of_inhabits v _ _ ⟨wellFormed, typed⟩
        obtain ⟨entries, rfl, held⟩ := Value.dict_of_inhabits a key _ first
        simp only
        split
        · next result found =>
            obtain ⟨key', member, -⟩ := Value.entry?_mem b result entries found
            exact yields_pure result (held.typed _ member).2
        · exact yields_throw _ (.missingKey b)
      · cases ruled
  · cases ruled

theorem dictSet_sound : dictSet.Sound := by
  intro v ty wellFormed ruled
  simp only [dictSet] at ruled ⊢
  split at ruled
  · next key value newKey newValue typed =>
      split at ruled
      · next same =>
          obtain rfl := Option.some.inj ruled
          obtain ⟨rfl, rfl⟩ := same
          obtain ⟨a, b, c, rfl, first, second, third⟩ :=
            Value.triple_of_inhabits v _ _ _ ⟨wellFormed, typed⟩
          obtain ⟨entries, rfl, held⟩ := Value.dict_of_inhabits a key value first
          have pairsTyped : ∀ pair ∈ entries ++ [(b, c)],
              pair.1.Inhabits key ∧ pair.2.Inhabits value := by
            intro pair member
            rcases List.mem_append.mp member with old | new
            · exact held.typed pair old
            · obtain rfl := List.mem_singleton.mp new
              exact ⟨second, third⟩
          obtain ⟨dict, made, inhabits⟩ := Value.mkDict_ok key value _ pairsTyped
          simp only [made]
          exact yields_pure dict inhabits
      · cases ruled
  · cases ruled

theorem dictRemove_sound : dictRemove.Sound := by
  intro v ty wellFormed ruled
  simp only [dictRemove] at ruled ⊢
  split at ruled
  · next key value unwanted typed =>
      split at ruled
      · obtain rfl := Option.some.inj ruled
        obtain ⟨a, b, rfl, first, -⟩ := Value.pair_of_inhabits v _ _ ⟨wellFormed, typed⟩
        obtain ⟨entries, rfl, held⟩ := Value.dict_of_inhabits a key value first
        refine yields_pure _ (Value.inhabits_dict key value _ ⟨?_, ?_⟩)
        · intro entry member
          exact held.typed entry (List.mem_filter.mp member).1
        · exact held.distinct.filter _
      · cases ruled
  · cases ruled

theorem length_sound : length.Sound := by
  intro v ty _ ruled
  have counts : ty = .int .uint32 := by
    simp only [length] at ruled
    split at ruled <;> simp_all
  subst counts
  simp only [length]
  split
  · exact yields_pure _ (Value.inhabits_int .uint32 _)
  · exact yields_throw _ (.overflow "length" (.int .uint32))

theorem stringJoin_sound : stringJoin.Sound := by
  intro v ty wellFormed ruled
  simp only [stringJoin] at ruled ⊢
  split at ruled
  · next typed =>
      obtain rfl := Option.some.inj ruled
      obtain ⟨a, b, rfl, first, -⟩ := Value.pair_of_inhabits v _ _ ⟨wellFormed, typed⟩
      obtain ⟨parts, rfl, -⟩ := Value.array_of_inhabits a .string first
      exact yields_pure _ (Value.inhabits_string _)
  · cases ruled

end Builtin

/-- A table whose functions all keep their rules. -/
def BuiltinTable.Sound (table : BuiltinTable) : Prop :=
  ∀ name b, table.find? name = some b → b.Sound

theorem Builtin.standard_sound : Builtin.standard.Sound := by
  intro name b found
  have member : b ∈ Builtin.standard.functions := List.mem_of_find?_eq_some found
  simp only [Builtin.standard, List.mem_cons, List.not_mem_nil, or_false] at member
  rcases member with rfl | rfl | rfl | rfl | rfl | rfl | rfl | rfl | rfl | rfl | rfl | rfl
  · exact keys_sound
  · exact pairKeys_sound
  · exact freshObjectPath_sound
  · exact inArray_sound
  · exact arrayGet_sound
  · exact arrayInsert_sound
  · exact arrayRemove_sound
  · exact dictGet_sound
  · exact dictSet_sound
  · exact dictRemove_sound
  · exact length_sound
  · exact stringJoin_sound

end SimBus
