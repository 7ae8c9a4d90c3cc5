import TypedHandles.Proofs.Hosting
import TypedHandles.Proofs.SameKinds
import TypedHandles.Proofs.SignatureEdits

/-!
What adapters do when they run. An adapter converts the arguments from the first to the last, calls
its handle on what comes out, and hands on the result; where an argument does not convert it reports
that and calls nothing. A collector calls its handle on the leading arguments and an array of the
others.

So a loose call does the same as `Handle.loosely`, but for the adapters that are made on the way.
-/
namespace TypedHandles

/-- What is kept of a result: nothing at a signature without one. -/
def Kind.kept (ret : Kind) (v : Value) : Value := if ret.isVoid then .void else v

theorem Kind.kept_kept (ret : Kind) (v : Value) : ret.kept (ret.kept v) = ret.kept v := by
  unfold kept
  cases ret.isVoid with
  | true => rfl
  | false => rfl

/-- Converts each value from the first kind that stands next to it to the second. -/
def Value.convertAll (items : List (Value × Kind × Kind)) : Except Failure (List Value) :=
  items.mapM fun (v, source, target) => v.convert source target

/-- Values that no conversion changes stay as they are. -/
theorem Value.convertAll_unchanged {items : List (Value × Kind × Kind)}
    (unchanged : ∀ item ∈ items, item.1.convert item.2.1 item.2.2 = .ok item.1) :
    convertAll items = .ok (items.map Prod.fst) := by
  induction items with
  | nil => rfl
  | cons item items ih =>
    obtain ⟨here, rest⟩ := List.forall_mem_cons.1 unchanged
    have others := ih rest
    unfold convertAll at others ⊢
    simp only [List.mapM_cons, here, others]
    rfl

/-- Converts each value from the kind that it has by itself to the kind that stands next to it. -/
def Value.convertEach (items : List (Value × Kind)) : Except Failure (List Value) :=
  items.mapM fun (v, target) => v.convert v.kind target

theorem Value.convertEach_eq (items : List (Value × Kind)) :
    convertEach items = convertAll (items.map fun (v, target) => (v, v.kind, target)) := by
  rw [convertEach, convertAll, List.mapM_map]
  rfl

theorem Value.convertEach_cons (v : Value) (target : Kind) (items : List (Value × Kind)) :
    convertEach ((v, target) :: items) = (do
      let w ← v.convert v.kind target
      let results ← convertEach items
      return w :: results) :=
  List.mapM_cons

/-- Slots of a frame and the values that they hold. -/
def Carries (frame : List Value) (slots : List Slot) (values : List Value) : Prop :=
  List.Forall₂ (fun slot v => frame[slot]? = some v) slots values

theorem Carries.weaken {frame : List Value} {slots : List Slot} {values : List Value}
    (carries : Carries frame slots values) (more : List Value) :
    Carries (frame ++ more) slots values := by
  refine List.Forall₂.imp (fun slot v found => ?_) carries
  rwa [List.getElem?_append_left (List.getElem?_eq_some_iff.1 found).1]

theorem Carries.slots {frame : List Value} {start stop : Nat} (inside : stop ≤ frame.length) :
    Carries frame (Program.slots start stop) ((frame.drop start).take (stop - start)) := by
  unfold Program.slots
  have fits : stop - start ≤ frame.length - start := Nat.sub_le_sub_right inside start
  generalize stop - start = count at fits
  induction count generalizing start with
  | zero => exact .nil
  | succ count ih =>
    have here : start < frame.length := by omega
    rw [List.range'_succ, List.drop_eq_getElem_cons here, List.take_succ_cons]
    refine .cons (List.getElem?_eq_getElem here) (ih ?_)
    omega

/-- Slots are read one by one. -/
theorem Step.gather_of_carries {frame : List Value} {slots : List Slot} {values : List Value}
    (carries : Carries frame slots values) : Step.gather frame slots = pure values := by
  induction carries with
  | nil => rfl
  | cons here _ ih =>
    rw [Step.gather, here, ih]
    rfl

theorem Step.gather_all {s : Signature} {args : List Value} (lengths : args.length = s.arity) :
    Step.gather args (Program.slots 0 s.arity) = pure args := by
  have all : Carries args (Program.slots 0 s.arity) _ :=
    Carries.slots (Nat.le_of_eq lengths.symm)
  rw [Step.gather_of_carries all]
  simp [← lengths]

theorem leading_of_le {values : List Value} {count : Nat} (enough : count ≤ values.length) :
    leading values count = pure (values.take count) := by
  simp [leading, slice?, enough]
  rfl

/-- A program of one step runs it on all arguments and keeps its result. -/
theorem Program.single_perform {run : Runner} {limit : Nat} {s : Signature}
    {step : List Slot → Step} {args : List Value} (lengths : args.length = s.arity) :
    (Program.single s step).perform run limit args = (do
      let v ← (step (Program.slots 0 s.arity)).perform run limit s.ret args
      return s.ret.kept v) := by
  unfold single perform
  simp only [fill, bind_assoc, pure_bind]
  refine congrArg (_ >>= ·) (funext fun v => ?_)
  have kept : (args ++ [v])[s.arity]? = some v := by
    rw [← lengths, List.getElem?_concat_length]
  unfold resultSlot Kind.kept
  cases s.ret.isVoid with
  | true => rfl
  | false =>
    show Exec.ofOption _ = _
    rw [kept]
    rfl

namespace Program

variable (run : Runner) (limit : Nat)

theorem fill_append (frame : List Value) (first second : List Binding) :
    fill run limit frame (first ++ second) =
      fill run limit frame first >>= fun frame => fill run limit frame second := by
  induction first generalizing frame with
  | nil => rfl
  | cons b rest ih => simp only [List.cons_append, fill, bind_assoc, ih]

/-- Bindings that compute some values: they leave them in the given slots, or report why not. -/
def Computes (frame : List Value) (bindings : List Binding) (slots : List Slot) :
    Except Failure (List Value) → Prop
  | .ok values => ∃ more, more.length = bindings.length ∧
      fill run limit frame bindings = pure (frame ++ more) ∧ Carries (frame ++ more) slots values
  | .error failure => fill run limit frame bindings = Exec.refuse failure

variable {run limit} {frame : List Value} {chains : List (Slot × List (Slot → Binding))}
  {items : List (Value × Kind × Kind)}

theorem Computes.append {first second : List Binding} {slots slots' : List Slot}
    {outcome outcome' : Except Failure (List Value)}
    (before : Computes run limit frame first slots outcome)
    (after : ∀ more : List Value, more.length = first.length →
      Computes run limit (frame ++ more) second slots' outcome') :
    Computes run limit frame (first ++ second) (slots ++ slots') (do
      let values ← outcome
      let values' ← outcome'
      return values ++ values') := by
  match outcome with
  | .error failure =>
    show fill run limit frame (first ++ second) = Exec.refuse failure
    rw [fill_append, show fill run limit frame first = _ from before]
    rfl
  | .ok values =>
    obtain ⟨more, length, filled, carries⟩ := before
    have after := after more length
    match outcome' with
    | .error failure =>
      show fill run limit frame (first ++ second) = Exec.refuse failure
      rw [fill_append, filled, pure_bind]
      exact after
    | .ok values' =>
      obtain ⟨more', length', filled', carries'⟩ := after
      refine ⟨more ++ more', by simp [length, length'], ?_, ?_⟩
      · rw [fill_append, filled, pure_bind, filled', List.append_assoc]
      · rw [← List.append_assoc]
        exact List.rel_append (carries.weaken more') carries'

/-- A chain that converts a value, left out when the kinds agree. -/
theorem computes_conversion (run : Runner) (limit : Nat) {slot : Slot} {v : Value}
    (found : frame[slot]? = some v) (source target : Kind) :
    Computes run limit frame (chain frame.length slot (conversion source target)).1
      [(chain frame.length slot (conversion source target)).2]
      (Value.convertAll [(v, source, target)]) := by
  have one : Value.convertAll [(v, source, target)] =
      (do let w ← v.convert source target; return [w]) := by
    simp [Value.convertAll]
  rw [one]
  unfold conversion
  split
  · next same =>
    have unchanged : v.convert source target = .ok v := by
      unfold Value.convert
      rw [if_pos same]
    rw [unchanged]
    exact ⟨[], rfl, by rw [List.append_nil]; rfl, .cons (by rwa [List.append_nil]) .nil⟩
  · have step : fill run limit frame (chain frame.length slot
        [fun slot => ⟨target, .convert slot source target⟩]).1 =
          (do let w ← Exec.ofExcept (v.convert source target); pure (frame ++ [w])) := by
      simp only [chain, fill, Step.perform, found]
      rfl
    cases converted : v.convert source target with
    | error failure =>
      rw [converted] at step
      exact step
    | ok w =>
      rw [converted] at step
      exact ⟨[w], rfl, step, .cons (by simp [chain]) .nil⟩

/-- A chain that converts an argument of the frame. -/
def Converts (frame : List Value) (chain : Slot × List (Slot → Binding))
    (item : Value × Kind × Kind) : Prop :=
  frame[chain.1]? = some item.1 ∧ chain.2 = conversion item.2.1 item.2.2

theorem Converts.weaken (converts : List.Forall₂ (Converts frame) chains items)
    (more : List Value) : List.Forall₂ (Converts (frame ++ more)) chains items := by
  refine List.Forall₂.imp (fun chain item ⟨found, steps⟩ => ⟨?_, steps⟩) converts
  rwa [List.getElem?_append_left (List.getElem?_eq_some_iff.1 found).1]

/-- Chains that convert arguments convert them from the first to the last. -/
theorem computes_layout (converts : List.Forall₂ (Converts frame) chains items) :
    Computes run limit frame (layout frame.length chains).1 (layout frame.length chains).2
      (Value.convertAll items) := by
  induction chains generalizing frame items with
  | nil =>
    cases converts
    exact ⟨[], rfl, by rw [List.append_nil]; rfl, .nil⟩
  | cons c rest ih =>
    obtain ⟨slot, steps⟩ := c
    cases converts with
    | @cons _ item _ items here others =>
      obtain ⟨found, rfl⟩ := here
      have all : Value.convertAll (item :: items) = (do
          let first ← Value.convertAll [item]
          let rest ← Value.convertAll items
          return first ++ rest) := by
        simp [Value.convertAll]
      rw [all]
      refine (computes_conversion run limit found item.2.1 item.2.2).append fun more length => ?_
      rw [← length, ← List.length_append]
      exact ih (Converts.weaken others more)

/-- A result that is converted at the end, and kept if there is one. -/
theorem converted_kept (own ret : Kind) (result : Value) :
    (do
      let last ← fill run limit (frame ++ [result])
        (chain (frame.length + 1) frame.length (conversion own ret)).1
      match resultSlot ret (chain (frame.length + 1) frame.length (conversion own ret)).2 with
      | some slot => Exec.ofOption last[slot]?
      | none => return .void : Exec Value) = (do
      let converted ← Exec.ofExcept (result.convert own ret)
      return ret.kept converted) := by
  have found : (frame ++ [result])[frame.length]? = some result := List.getElem?_concat_length
  have computes := computes_conversion run limit found own ret
  rw [List.length_append, List.length_singleton] at computes
  generalize chain (frame.length + 1) frame.length (conversion own ret) = after at computes ⊢
  have one : Value.convertAll [(result, own, ret)] =
      (do let w ← result.convert own ret; return [w]) := by
    simp [Value.convertAll]
  rw [one] at computes
  cases done : result.convert own ret with
  | error failure =>
    rw [done] at computes
    rw [show fill run limit (frame ++ [result]) after.1 = Exec.refuse failure from computes]
    rfl
  | ok converted =>
    rw [done] at computes
    obtain ⟨more, -, filled, carries⟩ := computes
    cases carries with
    | cons here _ =>
      rw [filled, pure_bind]
      unfold resultSlot Kind.kept
      cases ret.isVoid with
      | true => rfl
      | false =>
        show Exec.ofOption _ = _
        rw [here]
        rfl

/-- A program that ends in a call calls its handle on the values that are computed before. -/
theorem calling_perform {args : List Value} {before : List Binding} {slots : List Slot}
    {outcome : Except Failure (List Value)}
    (computes : Computes run limit args before slots outcome) (target : Handle) :
    (calling args.length before target slots).perform run limit args = (do
      let values ← Exec.ofExcept outcome
      let result ← run.call target values
      return target.signature.ret.kept result) := by
  unfold calling perform
  dsimp only
  rw [fill_append]
  match outcome with
  | .error failure =>
    rw [show fill run limit args before = Exec.refuse failure from computes]
    rfl
  | .ok values =>
    obtain ⟨more, length, filled, carries⟩ := computes
    rw [filled, pure_bind, show Exec.ofExcept (.ok values) = pure values from rfl, pure_bind]
    simp only [fill, Step.perform, Step.gather_of_carries carries, pure_bind, bind_assoc]
    refine congrArg (run.call target values >>= ·) (funext fun result => ?_)
    have kept : (args ++ more ++ [result])[args.length + before.length]? = some result := by
      rw [← length, ← List.length_append, List.getElem?_concat_length]
    unfold resultSlot Kind.kept
    cases target.signature.ret.isVoid with
    | true => rfl
    | false =>
      show Exec.ofOption _ = _
      rw [kept]
      rfl

end Program

/-- The program that calls a handle on the leading arguments and on an array of `count` others. -/
def gathering (h : Handle) (leading : Nat) (element : Kind) (count : Nat) : Program :=
  let arity := leading + count
  .calling arity [⟨.arrayOf element, .collect element (Program.slots leading arity)⟩] h
    (Program.slots 0 leading ++ [arity])

namespace Blueprint

variable {run : Runner} {limit : Nat} {args : List Value}

/-- An adapter converts the arguments, calls the handle on what comes out, and converts the
result. -/
theorem converting_perform {h : Handle} {signature : Signature}
    (lengths : args.length = signature.arity) (arity : signature.arity = h.arity) :
    (converting h signature).program.perform run limit args = (do
      let values ← Exec.ofExcept
        (Value.convertAll (args.zip (signature.params.zip h.signature.params)))
      let result ← run.call h values
      let converted ← Exec.ofExcept (result.convert h.signature.ret signature.ret)
      return signature.ret.kept converted) := by
  let chains := (h.signature.params.zip signature.params).mapIdx fun slot kinds =>
    (slot, Program.conversion kinds.2 kinds.1)
  have converts : List.Forall₂ (Program.Converts args) chains
      (args.zip (signature.params.zip h.signature.params)) := by
    have lengths : args.length = signature.params.length := lengths
    have arity : signature.params.length = h.signature.params.length := arity
    refine List.forall₂_of_length_eq_of_get (by simp [chains, lengths, arity]) fun i h₁ h₂ => ?_
    have inside : i < args.length := by
      rw [List.length_zip] at h₂
      omega
    exact ⟨by simp [chains, inside], by simp [chains]⟩
  have computes := @Program.computes_layout run limit args chains _ converts
  have program : (converting h signature).program =
      let laid := Program.layout args.length chains
      let called := args.length + laid.1.length
      let after := Program.chain (called + 1) called
        (Program.conversion h.signature.ret signature.ret)
      ⟨args.length, laid.1 ++ ⟨h.signature.ret, .call h laid.2⟩ :: after.1,
        Program.resultSlot signature.ret after.2⟩ := by
    rw [lengths]
    rfl
  rw [program]
  generalize Program.layout args.length chains = laid at computes ⊢
  unfold Program.perform
  dsimp only
  rw [Program.fill_append]
  match Value.convertAll _, computes with
  | .error failure, computes =>
    rw [show Program.fill run limit args laid.1 = Exec.refuse failure from computes]
    rfl
  | .ok values, ⟨more, length, filled, carries⟩ =>
    rw [filled, pure_bind, show Exec.ofExcept (.ok values) = pure values from rfl, pure_bind]
    simp only [Program.fill, Step.perform, Step.gather_of_carries carries, pure_bind, bind_assoc]
    refine congrArg (run.call h values >>= ·) (funext fun result => ?_)
    rw [← length, ← List.length_append]
    exact Program.converted_kept h.signature.ret signature.ret result

/-- A collector of a handle whose last parameter takes the array. -/
theorem collector_eq_of_view {h : Handle} {leading : List Kind} {element last : Kind} {count : Nat}
    (params : h.signature.params = leading ++ [last])
    (viewable : (Kind.arrayOf element).isViewableAs last true = true)
    (limit : leading.length + count ≤ Signature.maxArity) :
    collector h (.arrayOf element) count = (do
      let signature ← Checked.ofExcept
        (Signature.make h.signature.ret (leading ++ List.replicate count element))
      return ⟨signature, gathering h leading.length element count⟩) := by
  have arity : h.signature.arity - 1 = leading.length := by simp [Signature.arity, params]
  have short : ¬ leading.length + count > longestKindList := by
    unfold longestKindList
    unfold Signature.maxArity at limit
    omega
  have replaced : h.signature.replaceParams leading.length h.signature.arity
      (List.replicate count element) =
        Signature.make h.signature.ret (leading ++ List.replicate count element) := by
    have parts : h.signature.params = leading ++ [last] ++ [] := by rw [params, List.append_nil]
    have length : h.signature.arity = leading.length + [last].length := by
      rw [Signature.arity, params, List.length_append]
    rw [Signature.replaceParams_of_parts parts rfl length, List.append_nil]
  have own : elementOf (.arrayOf element) = .ok element := rfl
  unfold collector
  simp only [own, params, arity, if_neg short, if_neg (Nat.not_lt.2 limit),
    List.getLast?_concat]
  rw [show Checked.ofExcept (.ok element) = pure element from rfl, pure_bind, replaced]
  simp only [viewable]
  rfl

/-- A collector of a handle whose last parameter is the array. -/
theorem collector_eq {h : Handle} {leading : List Kind} {element : Kind} {count : Nat}
    (params : h.signature.params = leading ++ [.arrayOf element])
    (limit : leading.length + count ≤ Signature.maxArity) :
    collector h (.arrayOf element) count = (do
      let signature ← Checked.ofExcept
        (Signature.make h.signature.ret (leading ++ List.replicate count element))
      return ⟨signature, gathering h leading.length element count⟩) :=
  collector_eq_of_view params (Kind.isViewableAs_refl _ _) limit

/-- Collecting calls the handle on the leading arguments and an array of the others. -/
theorem gathering_perform {h : Handle} {leading : List Kind} {element : Kind} {count : Nat}
    (lengths : args.length = leading.length + count) :
    (gathering h leading.length element count).perform run limit args = (do
      let result ← run.call h
        (args.take leading.length ++ [.array element (args.drop leading.length)])
      return h.signature.ret.kept result) := by
  have collected : Carries args (Program.slots leading.length args.length)
      (args.drop leading.length) := by
    have carries : Carries args (Program.slots leading.length args.length) _ :=
      Carries.slots (Nat.le_refl _)
    rwa [List.take_of_length_le (by simp)] at carries
  have front : Carries args (Program.slots 0 leading.length) (args.take leading.length) :=
    Carries.slots (by omega)
  have computes : Program.Computes run limit args
      [⟨.arrayOf element, .collect element (Program.slots leading.length args.length)⟩]
      (Program.slots 0 leading.length ++ [args.length])
      (.ok (args.take leading.length ++ [.array element (args.drop leading.length)])) := by
    refine ⟨[.array element (args.drop leading.length)], rfl, ?_, ?_⟩
    · simp only [Program.fill, Step.perform, Step.gather_of_carries collected, pure_bind]
    · refine List.rel_append (front.weaken _) (.cons ?_ .nil)
      simp
  unfold gathering
  dsimp only
  rw [← lengths]
  exact Program.calling_perform computes h

end Blueprint
/-! Values at the kinds that they have by themselves. -/

namespace Value

/-- A value is `void`, `null`, a primitive or a reference to an instance of one type. -/
theorem kind_cases (v : Value) :
    v = .void ∨ v = .null ∨ (∃ p, v.prim? = some p ∧ v.kind = .prim p) ∨
      ∃ t, v.prim? = none ∧ v.refType? = some t ∧ v.kind = .ref t := by
  cases v with
  | void => exact .inl rfl
  | null => exact .inr (.inl rfl)
  | bool | byte | short | char | int | long | float | double =>
    exact .inr (.inr (.inl ⟨_, rfl, rfl⟩))
  | _ => exact .inr (.inr (.inr ⟨_, rfl, rfl, rfl⟩))

theorem kind_ne_void {v : Value} (nonVoid : v ≠ .void) : v.kind ≠ .void := by
  intro void
  rcases v.kind_cases with rfl | rfl | ⟨p, -, kind⟩ | ⟨t, -, -, kind⟩
  · exact nonVoid rfl
  · cases void
  · cases kind.symm.trans void
  · cases kind.symm.trans void

theorem conforms_of_refType? {v : Value} {s t : RefType} (type : v.refType? = some s) :
    v.conforms (.ref t) = s.isSubtypeOf t := by
  cases v <;> first | cases type; rfl | cases type

/-- Every value but `void` is of its own kind. -/
theorem conforms_of_kind_beq {v : Value} {k : Kind} (nonVoid : v ≠ .void)
    (same : (v.kind == k) = true) : v.conforms k = true := by
  rcases v.kind_cases with rfl | rfl | ⟨p, prim, kind⟩ | ⟨s, -, type, kind⟩
  · exact absurd rfl nonVoid
  · cases k with
    | ref t => rfl
    | void | prim => cases same
  · rw [kind] at same
    cases k with
    | prim q =>
      have same : p = q := eq_of_beq same
      rw [conforms_prim_iff, prim, same]
    | void | ref => cases same
  · rw [kind] at same
    cases k with
    | ref t =>
      rw [conforms_of_refType? type]
      exact RefType.isSubtypeOf_of_beq same
    | void | prim => cases same

/-- A value that may be read at another kind is of that kind already. -/
theorem conforms_of_kind_isViewableAs {v : Value} {k : Kind} (nonVoid : v ≠ .void)
    (viewable : v.kind.isViewableAs k true = true) : v.conforms k = true := by
  rcases Kind.isViewableAs_strict_iff.1 viewable with same | ⟨s, t, source, rfl, above⟩
  · exact conforms_of_kind_beq nonVoid same
  · rcases v.kind_cases with rfl | rfl | ⟨p, -, kind⟩ | ⟨r, -, type, kind⟩
    · exact absurd rfl nonVoid
    · rfl
    · cases kind.symm.trans source
    · cases kind.symm.trans source
      rw [conforms_of_refType? type, above]

/-- Nothing is done to a value that may be read at the wanted kind. -/
theorem convert_of_kind_isViewableAs {v : Value} {k : Kind} (nonVoid : v ≠ .void)
    (viewable : v.kind.isViewableAs k true = true) : v.convert v.kind k = .ok v := by
  have conforms := conforms_of_kind_isViewableAs nonVoid viewable
  unfold convert
  split
  · rfl
  · next differ =>
    obtain ⟨s, t, source, rfl, -⟩ := (Kind.isViewableAs_strict_iff.1 viewable).resolve_left differ
    rw [source]
    exact checkCast_of_conforms conforms

/-- Values that need no conversion stay as they are. -/
theorem convertEach_of_forall₂ {values : List Value} {kinds : List Kind}
    (unchanged : List.Forall₂ (fun v k => convert v v.kind k = .ok v) values kinds) :
    convertEach (values.zip kinds) = .ok values := by
  induction unchanged with
  | nil => rfl
  | cons here _ ih =>
    rw [List.zip_cons_cons, convertEach_cons, here, ih]
    rfl

/-- Each value is converted to one value, or a cast fails. -/
theorem convertEach_ends (items : List (Value × Kind)) :
    Ends (·.isStatic = true) (fun results => results.length = items.length) (convertEach items) :=
  (mapM_ends fun (v, target) _ => (convert_ends v v.kind target).imp fun _ _ => trivial).imp
    fun _ paired => paired.length_eq.symm

end Value

/-! Making adapters. -/

/-- What the table remembers of a handle for a caller is an adapter of the handle to the caller. -/
def HandleTable.Recalls (t : HandleTable) (h : Handle) (caller : Signature) : Prop :=
  ∀ a, t.adapter? h = some a → (a.signature == caller) = true →
    a.signature = caller ∧ h.signature.isConvertibleTo caller = true ∧
      a.program = (Blueprint.adapting h caller).program

/-- Nothing is remembered of a new handle. -/
theorem HandleTable.recalls_new (t : HandleTable) (signature : Signature) (program : Program)
    (variableArity : Bool) (caller : Signature) :
    HandleTable.Recalls ⟨t.adapters.push none⟩
      ⟨t.adapters.size, signature, program, variableArity⟩ caller := by
  intro a found
  simp [adapter?] at found

/-- Every sound table recalls what it should. -/
theorem HandleTable.Sound.recalls {F : ClassLibrary} {K : Known} {t : HandleTable} {h : Handle}
    {caller : Signature} (sound : t.Sound K) (knowledge : Knowledge F K) (known : K (.handle h))
    (valid : caller.Valid F.Has) : t.Recalls h caller := by
  intro a found same
  obtain ⟨adapter, convertible, program⟩ := sound.adapter h a known found
  have eq := (Signature.beq_iff (knowledge.handle a adapter).valid valid).1 same
  rw [eq] at convertible program
  exact ⟨eq, convertible, program⟩

namespace Handle

/-- The code that serves a caller: the handle's own, or that of an adapter. -/
def codeFor (h : Handle) (caller : Signature) : Code :=
  if h.signature == caller then .program h.signature h.program
  else .program caller (Blueprint.adapting h caller).program

/-- A handle serves its own signature. -/
theorem asType_of_beq {h : Handle} {caller : Signature} (same : (h.signature == caller) = true)
    (t : HandleTable) : h.asType caller t = (.ok h, t) := by
  unfold asType
  simp only [same]
  rfl

/-- Where the signatures differ, the table is asked for an adapter first. -/
theorem asType_eq {h : Handle} {caller : Signature} (t : HandleTable)
    (differ : ¬ (h.signature == caller) = true) : h.asType caller t =
      match (t.adapter? h).filter (·.signature == caller) with
      | some adapter => (.ok adapter, t)
      | none =>
        if h.signature.isConvertibleTo caller then
          let adapter : Handle :=
            ⟨t.adapters.size, caller, (Blueprint.adapting h caller).program, false⟩
          (.ok adapter, HandleTable.remember ⟨t.adapters.push none⟩ h adapter)
        else (.error (.failed (.signatureMismatch caller h.signature)), t) := by
  unfold asType
  simp only [if_neg differ]
  rw [bind_get]
  cases (t.adapter? h).filter (·.signature == caller) with
  | some adapter => rfl
  | none =>
    cases convertible : h.signature.isConvertibleTo caller with
    | true =>
      have made : (Blueprint.adapting h caller).make t =
          (.ok ⟨t.adapters.size, caller, (Blueprint.adapting h caller).program, false⟩,
            ⟨t.adapters.push none⟩) := by
        unfold Blueprint.make
        rw [Blueprint.adapting_signature]
        rfl
      exact bind_of_ok made
    | false => rfl

/-- The ways to answer a request for a handle at a signature, with the table after it. -/
inductive Answers (h : Handle) (wanted : Signature) (table : HandleTable) :
    Except Halt Handle → HandleTable → Prop
  /-- The handle serves its own signature. -/
  | own : (h.signature == wanted) = true → Answers h wanted table (.ok h) table
  /-- The last adapter is of the signature that is asked for. -/
  | kept {a : Handle} : ¬ (h.signature == wanted) = true → table.adapter? h = some a →
      (a.signature == wanted) = true → Answers h wanted table (.ok a) table
  /-- A new adapter takes the place of the last one. -/
  | made {a : Handle} : ¬ (h.signature == wanted) = true →
      h.signature.isConvertibleTo wanted = true →
      a = ⟨table.adapters.size, wanted, (Blueprint.adapting h wanted).program, false⟩ →
      Answers h wanted table (.ok a) (HandleTable.remember ⟨table.adapters.push none⟩ h a)
  /-- Nothing is made, and the last adapter is still remembered. -/
  | refused : ¬ (h.signature == wanted) = true → h.signature.isConvertibleTo wanted = false →
      Answers h wanted table (.error (.failed (.signatureMismatch wanted h.signature))) table

/-- A request is answered in one of these ways. -/
theorem asType_answers (h : Handle) (wanted : Signature) (table : HandleTable) :
    h.Answers wanted table (h.asType wanted table).1 (h.asType wanted table).2 := by
  by_cases same : (h.signature == wanted) = true
  · rw [asType_of_beq same]
    exact .own same
  · rw [asType_eq table same]
    cases found : (table.adapter? h).filter (·.signature == wanted) with
    | some a =>
      obtain ⟨found, equal⟩ := Option.filter_eq_some_iff.1 found
      exact .kept same found equal
    | none =>
      cases convertible : h.signature.isConvertibleTo wanted with
      | true => exact .made same convertible rfl
      | false => exact .refused same convertible

theorem answers_of_asType {h : Handle} {wanted : Signature} {table table' : HandleTable}
    {outcome : Except Halt Handle} (asked : h.asType wanted table = (outcome, table')) :
    h.Answers wanted table outcome table' := by
  have answers := asType_answers h wanted table
  rwa [asked] at answers

/-- A handle that converts to a signature is adapted to it. -/
theorem asType_of_isConvertibleTo {h : Handle} {caller : Signature} {t : HandleTable}
    (recalls : t.Recalls h caller) (convertible : h.signature.isConvertibleTo caller = true) :
    ∃ a t', h.asType caller t = (.ok a, t') ∧ (a.signature == caller) = true ∧
      Code.program a.signature a.program = h.codeFor caller := by
  unfold codeFor
  by_cases same : (h.signature == caller) = true
  · exact ⟨h, t, asType_of_beq same t, same, by rw [if_pos same]⟩
  · rw [if_neg same, asType_eq t same]
    cases found : (t.adapter? h).filter (·.signature == caller) with
    | some a =>
      obtain ⟨found, equal⟩ := Option.filter_eq_some_iff.1 found
      obtain ⟨signature, -, program⟩ := recalls a found equal
      exact ⟨a, t, rfl, equal, by rw [signature, program]⟩
    | none =>
      simp only [convertible]
      exact ⟨_, _, rfl, BEq.rfl, rfl⟩

/-- A handle that does not convert to a signature is not adapted to it. -/
theorem asType_of_not_isConvertibleTo {h : Handle} {caller : Signature} {t : HandleTable}
    (recalls : t.Recalls h caller) (refused : h.signature.isConvertibleTo caller = false) :
    h.asType caller t = (.error (.failed (.signatureMismatch caller h.signature)), t) := by
  have differ : ¬ (h.signature == caller) = true := by
    rw [Signature.isConvertibleTo, Bool.or_eq_false_iff] at refused
    rw [refused.1]
    exact Bool.false_ne_true
  rw [asType_eq t differ]
  cases found : (t.adapter? h).filter (·.signature == caller) with
  | some a =>
    obtain ⟨found, equal⟩ := Option.filter_eq_some_iff.1 found
    obtain ⟨-, convertible, -⟩ := recalls a found equal
    cases convertible.symm.trans refused
  | none =>
    simp only [refused]
    rfl

/-! Loose calls. -/

/-- The signature of a call on some arguments: it has the kinds that they have by themselves. -/
def callerOf (h : Handle) (args : List Value) : Signature := ⟨h.signature.ret, args.map Value.kind⟩

/-- A call on arguments that go by the kinds that they have by themselves. -/
def loosely (run : Runner) (h : Handle) (args : List Value) : Exec Value :=
  if h.signature.isConvertibleTo (h.callerOf args) then run (h.codeFor (h.callerOf args)) args
  else Exec.refuse (.signatureMismatch (h.callerOf args) h.signature)

variable {run : Runner} {h : Handle} {args : List Value} {s : State}

theorem ofValues_eq (ret : Kind) (nonVoid : ∀ v ∈ args, v ≠ .void)
    (limit : args.length ≤ Signature.maxArity) :
    Signature.ofValues ret args = .ok ⟨ret, args.map Value.kind⟩ := by
  refine Signature.make_eq_ok_iff.2 ⟨rfl, by simpa using limit, fun k mem => ?_⟩
  obtain ⟨v, given, rfl⟩ := List.mem_map.1 mem
  exact Value.kind_ne_void (nonVoid v given)

theorem kinds_of_beq {signature : Signature} (same : (signature == h.callerOf args) = true) :
    List.Forall₂ (fun v k => (Value.kind v == k) = true) args signature.params := by
  have kinds : (signature.params == args.map Value.kind) = true := (Bool.and_eq_true_iff.1 same).2
  have paired := (List.forall₂_map_right_iff.1 (forall₂_of_beq kinds)).flip
  exact paired.imp fun v k same => (Kind.same_comm _ _).trans same

/-- Arguments are of the parameters of any signature that equals their own. -/
theorem conform_of_beq {signature : Signature} (nonVoid : ∀ v ∈ args, v ≠ .void)
    (same : (signature == h.callerOf args) = true) : Conform args signature.params :=
  ((List.forall₂_and_left _ _).2 ⟨nonVoid, kinds_of_beq same⟩).imp
    fun _ _ ⟨nonVoid, same⟩ => Value.conforms_of_kind_beq nonVoid same

theorem ofBuild_eq {α : Type} {x : Build α} {outcome : Except Halt α} {t : HandleTable}
    (built : x s.handles = (outcome, t)) :
    Exec.ofBuild x s = (outcome, { s with handles := t }) := by
  unfold Exec.ofBuild
  rw [built]

/-- An exact call of what a handle is adapted to is a loose call of the handle. -/
theorem asType_invokeExact {x : Build Handle} {t : HandleTable}
    (asked : x s.handles = h.asType (h.callerOf args) t)
    (recalls : t.Recalls h (h.callerOf args)) (nonVoid : ∀ v ∈ args, v ≠ .void) :
    (Exec.ofBuild x >>= fun a => a.invokeExact run args) s =
      h.loosely run args { s with handles := (h.asType (h.callerOf args) t).2 } := by
  unfold loosely
  cases convertible : h.signature.isConvertibleTo (h.callerOf args) with
  | true =>
    obtain ⟨a, t', adapted, same, code⟩ := asType_of_isConvertibleTo recalls convertible
    rw [bind_of_ok (ofBuild_eq (asked.trans adapted)), if_pos rfl, ← code, adapted]
    exact congrFun (a.invokeExact_of_conform run (conform_of_beq nonVoid same)) _
  | false =>
    have refused := asType_of_not_isConvertibleTo recalls convertible
    rw [bind_of_error (ofBuild_eq (asked.trans refused)), refused]
    rfl

/-- A loose call goes through the signature of its arguments. -/
theorem invoke_eq (accepted : h.variableArity = true ∨ args.length = h.arity)
    (nonVoid : ∀ v ∈ args, v ≠ .void) (limit : args.length ≤ Signature.maxArity) :
    h.invoke run args = h.invokeAs run (h.callerOf args) args := by
  have passed : (!h.variableArity && args.length != h.arity) = false := by
    rcases accepted with collects | lengths
    · rw [collects, Bool.not_true, Bool.false_and]
    · rw [lengths, bne_self_eq_false, Bool.and_false]
  unfold invoke
  rw [ofValues_eq _ nonVoid limit]
  simp only [passed]
  rfl

/-- A handle that does not collect is called loosely as it stands. -/
theorem invoke_of_fixed (fixed : h.variableArity = false) (lengths : args.length = h.arity)
    (nonVoid : ∀ v ∈ args, v ≠ .void) (limit : args.length ≤ Signature.maxArity)
    (recalls : s.handles.Recalls h (h.callerOf args)) :
    h.invoke run args s =
      h.loosely run args { s with handles := (h.asType (h.callerOf args) s.handles).2 } := by
  have asked : h.adaptedTo (h.callerOf args) s.handles =
      h.asType (h.callerOf args) s.handles := by
    simp only [adaptedTo, collectedCount, fixed]
    rfl
  rw [invoke_eq (.inr lengths) nonVoid limit]
  exact asType_invokeExact asked recalls nonVoid

/-- Whether a caller is served by the handle's own program. -/
def servesAsIs (h : Handle) (caller : Signature) : Bool :=
  h.signature == caller || h.signature.isViewableAs caller true

/-- What the handle's own program serves differs from its signature by moves of references up. -/
theorem views_of_servesAsIs {caller : Signature} (asIs : h.servesAsIs caller = true) :
    List.Forall₂ (fun supplied own => Kind.isViewableAs supplied own true = true) caller.params
      h.signature.params ∧ h.signature.ret.isViewableAs caller.ret true = true := by
  rcases Bool.or_eq_true_iff.1 asIs with same | view
  · obtain ⟨ret, params⟩ := Signature.beq_iff_parts.1 same
    refine ⟨(forall₂_of_beq params).flip.imp fun supplied own same => ?_,
      Kind.isViewableAs_strict_iff.2 (.inl ret)⟩
    exact Kind.isViewableAs_strict_iff.2 (.inl ((Kind.same_comm _ _).trans same))
  · simp only [Signature.isViewableAs, Bool.and_eq_true, beq_iff_eq, List.all_eq_true] at view
    obtain ⟨⟨arity, params⟩, ret⟩ := view
    have paired := List.forall₂_iff_zip.2 ⟨arity, fun {own wanted} mem => params (own, wanted) mem⟩
    exact ⟨paired.flip, ret⟩

theorem kinds_of_servesAsIs (asIs : h.servesAsIs (h.callerOf args) = true) :
    List.Forall₂ (fun v k => (Value.kind v).isViewableAs k true = true) args
      h.signature.params :=
  List.forall₂_map_left_iff.1 (views_of_servesAsIs asIs).1

/-- Arguments that the handle's own program is run on need no conversion. -/
theorem convertEach_of_servesAsIs (nonVoid : ∀ v ∈ args, v ≠ .void)
    (asIs : h.servesAsIs (h.callerOf args) = true) :
    Value.convertEach (args.zip h.signature.params) = .ok args :=
  Value.convertEach_of_forall₂ <|
    ((List.forall₂_and_left _ _).2 ⟨nonVoid, kinds_of_servesAsIs asIs⟩).imp
      fun _ _ ⟨nonVoid, viewable⟩ => Value.convert_of_kind_isViewableAs nonVoid viewable

variable {host : Host}

/-- Code that serves a caller runs the handle's own program, or converts and calls the handle. -/
theorem runCode_codeFor_eq {caller : Signature} (lengths : args.length = caller.arity)
    (arity : caller.arity = h.arity) (n : Nat) :
    runCode host (n + 1) (h.codeFor caller) args =
      if h.servesAsIs caller then (runCode host (n + 1)).call h args
      else do
        let values ← Exec.ofExcept
          (Value.convertAll (args.zip (caller.params.zip h.signature.params)))
        let result ← (runCode host n).call h values
        let converted ← Exec.ofExcept (result.convert h.signature.ret caller.ret)
        return caller.ret.kept converted := by
  unfold codeFor servesAsIs
  by_cases same : (h.signature == caller) = true
  · rw [if_pos same, same]
    rfl
  · rw [if_neg same, eq_false_of_ne_true same]
    unfold Blueprint.adapting
    cases view : h.signature.isViewableAs caller true with
    | true => rfl
    | false => exact Blueprint.converting_perform lengths arity

theorem runCode_codeFor (lengths : args.length = h.arity) (n : Nat) :
    runCode host (n + 1) (h.codeFor (h.callerOf args)) args =
      if h.servesAsIs (h.callerOf args) then (runCode host (n + 1)).call h args
      else do
        let values ← Exec.ofExcept (Value.convertEach (args.zip h.signature.params))
        let result ← (runCode host n).call h values
        return h.signature.ret.kept result := by
  have arity : (h.callerOf args).arity = args.length := List.length_map _
  have items : args.zip ((args.map Value.kind).zip h.signature.params) =
      (args.zip h.signature.params).map fun (v, target) => (v, v.kind, target) := by
    refine List.ext_getElem (by simp) fun i _ _ => ?_
    simp only [List.getElem_zip, List.getElem_map]
  rw [runCode_codeFor_eq arity.symm (arity.trans lengths)]
  refine congrArg (ite _ _) ?_
  unfold callerOf
  rw [items, ← Value.convertEach_eq]
  simp only [Value.convert_self]
  rfl

/-- Where the handle's own program is run, conversions would not change the arguments. -/
theorem runCode_codeFor_of_servesAsIs (lengths : args.length = h.arity) (n : Nat)
    (nonVoid : ∀ v ∈ args, v ≠ .void) (asIs : h.servesAsIs (h.callerOf args) = true) :
    runCode host (n + 1) (h.codeFor (h.callerOf args)) args = (do
      let values ← Exec.ofExcept (Value.convertEach (args.zip h.signature.params))
      (runCode host (n + 1)).call h values) := by
  rw [runCode_codeFor lengths, if_pos asIs, convertEach_of_servesAsIs nonVoid asIs]
  rfl

/-- Where it is not run, the arguments are converted and the handle is called. -/
theorem runCode_codeFor_of_not_servesAsIs (lengths : args.length = h.arity) (n : Nat)
    (converts : h.servesAsIs (h.callerOf args) = false) :
    runCode host (n + 1) (h.codeFor (h.callerOf args)) args = (do
      let values ← Exec.ofExcept (Value.convertEach (args.zip h.signature.params))
      let result ← (runCode host n).call h values
      return h.signature.ret.kept result) := by
  rw [runCode_codeFor lengths, converts, if_neg Bool.false_ne_true]

/-- Handles of one signature whose programs do the same do the same when they are called loosely. -/
theorem loosely_congr {g : Handle} (signature : g.signature = h.signature)
    (alike : ∀ (n : Nat) (values : List Value), values.length = h.arity →
      (runCode host n).call g values = (runCode host n).call h values)
    (lengths : args.length = h.arity) (n : Nat) :
    g.loosely (runCode host n) args = h.loosely (runCode host n) args := by
  have caller : g.callerOf args = h.callerOf args := by rw [callerOf, signature, callerOf]
  have lengths' : args.length = g.arity := by rw [lengths, arity, arity, signature]
  have served : runCode host n (g.codeFor (g.callerOf args)) args =
      runCode host n (h.codeFor (h.callerOf args)) args := by
    cases n with
    | zero => rfl
    | succ n =>
      rw [runCode_codeFor lengths, runCode_codeFor lengths', servesAsIs, servesAsIs, caller,
        signature, alike (n + 1) args lengths]
      refine congrArg (ite _ _) ?_
      have ends := Value.convertEach_ends (args.zip h.signature.params)
      cases converted : Value.convertEach (args.zip h.signature.params) with
      | error failure => rfl
      | ok values =>
        have length : values.length = h.arity := by
          rw [ends.of_eq_ok converted, List.length_zip, lengths]
          exact Nat.min_self _
        show (do
          let result ← (runCode host n).call g values
          return h.signature.ret.kept result) = _
        rw [alike n values length]
        rfl
  unfold loosely
  rw [served, caller, signature]

end Handle
end TypedHandles
