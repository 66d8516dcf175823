import EntitySql.Model.Registry
import Mathlib.Logic.Function.Basic

/-!
# What a registry remembers

A history of a registry is a list of events: the mapping of a type becomes another, or a type is
looked up. What the registry keeps of a type by the end of a history can be said without the
registry: `remembered` goes through the history and takes the model that the mapping of the time
gives at the first lookup where it gives one. An answer is what is remembered, or else what the
mapping of the moment gives, be it a model or an error.

All of this is about one type at a time. `remembered` passes over the events of other types, and so
does whatever is derived from it.

## Main definitions

* `Registry.Event`, `Registry.World`: what happens, and what it happens to
* `Registry.remembered`: the first success of a type in a history
* `Registry.Succeeds`: a lookup of a type in a history was answered by a model

## Main results

* `Registry.World.find?_after`: a registry keeps what is remembered
* `Registry.remembers`: what a registry does over time, from a start without models
-/

namespace EntitySql.Registry

variable {Key : Type}

/-- What happens around a registry. -/
inductive Event (Key : Type) where
  /-- The mapping of a type becomes another. -/
  | change (key : Key) (mapping : Mapping)
  /-- A type is looked up. -/
  | lookUp (key : Key)

/-- The type that an event is about. -/
def Event.key : Event Key → Key
  | change key _ | lookUp key => key

/-- The mappings of all types, and the registry. -/
structure World (Key : Type) where
  /-- The mapping that each type has. -/
  mapping : Key → Mapping
  /-- The registry. -/
  registry : Registry Key

/-- The world at the start: mappings, and a registry without models. -/
def World.start (mapping : Key → Mapping) : World Key := ⟨mapping, {}⟩

variable [DecidableEq Key]

namespace World

/-- The world behind an event. -/
def step (w : World Key) : Event Key → World Key
  | .change key mapping => { w with mapping := Function.update w.mapping key mapping }
  | .lookUp key => { w with registry := (w.registry.get key (w.mapping key)).2.1 }

/-- The world behind a history. -/
def after (w : World Key) (h : List (Event Key)) : World Key := h.foldl step w

/-- What a lookup is answered. -/
def answer (w : World Key) (key : Key) : Except Error Model :=
  (w.registry.get key (w.mapping key)).1

/-- Whether a lookup consults the mapping. -/
def consults (w : World Key) (key : Key) : Bool := (w.registry.get key (w.mapping key)).2.2

end World

/-- The mapping of a type behind a history, from the one before. -/
def current (key : Key) (mapping : Mapping) (h : List (Event Key)) : Mapping :=
  h.foldl (fun now e =>
    match e with
    | .change k mapping => if k = key then mapping else now
    | .lookUp _ => now) mapping

/-- The model that a type is remembered by: what its mapping gives at the first lookup of the type
where it gives a model. -/
def remembered (key : Key) : Mapping → List (Event Key) → Option Model
  | _, [] => none
  | mapping, .change k new :: h => remembered key (if k = key then new else mapping) h
  | mapping, .lookUp k :: h =>
    if k = key then (Model.build mapping).toOption.or (remembered key mapping h)
    else remembered key mapping h

/-- A lookup of a type in a history is answered by a model. -/
def Succeeds (w : World Key) (h : List (Event Key)) (key : Key) (m : Model) : Prop :=
  ∃ before rest, h = before ++ .lookUp key :: rest ∧ (w.after before).answer key = .ok m

/-! ### One lookup -/

section

variable {r : Registry Key} {key k : Key} {mapping : Mapping}

theorem get_of_find?_eq_some {m : Model} (h : r.find? key = some m) :
    r.get key mapping = (.ok m, r, false) := by
  rw [get, h]

theorem get_of_build_eq_ok {m : Model} (h : r.find? key = none)
    (hbuild : Model.build mapping = .ok m) :
    r.get key mapping = (.ok m, ⟨(key, m) :: r.entries⟩, true) := by
  rw [get, h]
  simp only [hbuild]

theorem get_of_build_eq_error {e : Error} (h : r.find? key = none)
    (hbuild : Model.build mapping = .error e) : r.get key mapping = (.error e, r, true) := by
  rw [get, h]
  simp only [hbuild]

theorem find?_cons {m : Model} :
    (Registry.mk ((key, m) :: r.entries)).find? k = if k = key then some m else r.find? k := by
  rw [find?, List.lookup_cons]
  by_cases h : k = key
  · simp [h]
  · simp [h, find?, beq_eq_false_iff_ne.mpr h]

/-- What a registry keeps of a type when another or the same is looked up. -/
theorem find?_get : (r.get k mapping).2.1.find? key =
    if k = key then (r.find? key).or (Model.build mapping).toOption else r.find? key := by
  cases hfind : r.find? k with
  | some m =>
    rw [get_of_find?_eq_some hfind]
    by_cases h : k = key
    · subst h
      simp [hfind]
    · simp [h]
  | none =>
    cases hbuild : Model.build mapping with
    | ok m =>
      rw [get_of_build_eq_ok hfind hbuild, find?_cons]
      by_cases h : k = key
      · subst h
        simp [hfind, Except.toOption]
      · simp [h, Ne.symm h]
    | error e =>
      rw [get_of_build_eq_error hfind hbuild]
      by_cases h : k = key
      · subst h
        simp [hfind, Except.toOption]
      · simp [h]

end

namespace World

variable {w : World Key} {h : List (Event Key)} {key : Key}

/-- A lookup is answered by what is kept, or else by what the mapping gives. -/
theorem answer_eq : w.answer key =
    match w.registry.find? key with
    | some m => .ok m
    | none => Model.build (w.mapping key) := by
  cases hfind : w.registry.find? key with
  | some m => rw [answer, get_of_find?_eq_some hfind]
  | none =>
    cases hbuild : Model.build (w.mapping key) with
    | ok m => rw [answer, get_of_build_eq_ok hfind hbuild]
    | error e => rw [answer, get_of_build_eq_error hfind hbuild]

/-- The mapping is consulted as long as nothing is kept. -/
theorem consults_eq : w.consults key = (w.registry.find? key).isNone := by
  cases hfind : w.registry.find? key with
  | some m => rw [consults, get_of_find?_eq_some hfind]; rfl
  | none =>
    cases hbuild : Model.build (w.mapping key) with
    | ok m => rw [consults, get_of_build_eq_ok hfind hbuild]; rfl
    | error e => rw [consults, get_of_build_eq_error hfind hbuild]; rfl

/-- A lookup that fails leaves the world as it is. -/
theorem step_of_answer_eq_error {e : Error} (he : w.answer key = .error e) :
    Model.build (w.mapping key) = .error e ∧ w.step (.lookUp key) = w := by
  rw [answer_eq] at he
  cases hfind : w.registry.find? key with
  | some m => simp [hfind] at he
  | none =>
    simp only [hfind] at he
    exact ⟨he, by rw [step, get_of_build_eq_error hfind he]⟩

/-- What is kept of a type behind an event. -/
theorem find?_step (e : Event Key) : (w.step e).registry.find? key =
    (w.registry.find? key).or (remembered key (w.mapping key) [e]) := by
  cases e with
  | change k mapping => simp [step, remembered]
  | lookUp k =>
    rw [step, find?_get]
    by_cases hk : k = key
    · subst hk
      simp [remembered]
    · simp [remembered, hk]

theorem mapping_step (e : Event Key) :
    (w.step e).mapping key = current key (w.mapping key) [e] := by
  cases e with
  | change k mapping =>
    by_cases hk : k = key
    · subst hk
      simp [step, current]
    · simp [step, current, hk, Function.update_of_ne (Ne.symm hk)]
  | lookUp k => rfl

end World

theorem current_cons (key : Key) (mapping : Mapping) (e : Event Key) (h : List (Event Key)) :
    current key mapping (e :: h) = current key (current key mapping [e]) h := rfl

theorem remembered_cons (key : Key) (mapping : Mapping) (e : Event Key) (h : List (Event Key)) :
    remembered key mapping (e :: h) =
      (remembered key mapping [e]).or (remembered key (current key mapping [e]) h) := by
  cases e with
  | change k new => rfl
  | lookUp k =>
    by_cases hk : k = key
    · simp [remembered, current, hk]
    · simp [remembered, current, hk]

namespace World

variable {w : World Key} {h : List (Event Key)} {key : Key}

theorem mapping_after : (w.after h).mapping key = current key (w.mapping key) h := by
  induction h generalizing w with
  | nil => rfl
  | cons e h ih => rw [after, List.foldl_cons, ← after, ih, mapping_step, ← current_cons]

/-- **A registry keeps what is remembered**, besides what it had before. -/
theorem find?_after : (w.after h).registry.find? key =
    (w.registry.find? key).or (remembered key (w.mapping key) h) := by
  induction h generalizing w with
  | nil => simp [after, remembered]
  | cons e h ih =>
    rw [after, List.foldl_cons, ← after, ih, find?_step, mapping_step, Option.or_assoc,
      ← remembered_cons]

theorem after_append (h' : List (Event Key)) : w.after (h ++ h') = (w.after h).after h' :=
  List.foldl_append

/-- A lookup that is answered by a model keeps it. -/
theorem find?_step_of_answer {m : Model} (hm : w.answer key = .ok m) :
    (w.step (.lookUp key)).registry.find? key = some m := by
  rw [answer_eq] at hm
  rw [find?_step]
  cases hfind : w.registry.find? key with
  | some m' =>
    simp only [hfind, Except.ok.injEq] at hm
    rw [hm, Option.some_or]
  | none =>
    simp only [hfind] at hm
    simp [remembered, hm, Except.toOption]

/-- What is kept stays. -/
theorem find?_after_of_kept {m : Model} (hm : w.registry.find? key = some m) :
    (w.after h).registry.find? key = some m := by
  rw [find?_after, hm, Option.some_or]

end World

/-- **A registry keeps a model of a type exactly if a lookup of the type was answered by it.** -/
theorem find?_after_iff {w : World Key} {h : List (Event Key)} {key : Key}
    (hw : w.registry.find? key = none) {m : Model} :
    (w.after h).registry.find? key = some m ↔ Succeeds w h key m := by
  constructor
  · intro hkept
    induction h generalizing w with
    | nil =>
      rw [show w.after [] = w from rfl, hw] at hkept
      cases hkept
    | cons e h ih =>
      have hafter : w.after (e :: h) = (w.step e).after h := rfl
      rw [hafter] at hkept
      cases hstep : (w.step e).registry.find? key with
      | none =>
        obtain ⟨before, rest, rfl, hm⟩ := ih hstep hkept
        exact ⟨e :: before, rest, rfl, hm⟩
      | some m' =>
        -- the first event is the lookup that succeeds
        obtain rfl : m' = m :=
          Option.some.inj ((World.find?_after_of_kept hstep).symm.trans hkept)
        rw [World.find?_step, hw, Option.none_or] at hstep
        cases e with
        | change k mapping => simp [remembered] at hstep
        | lookUp k =>
          by_cases hk : k = key
          · subst hk
            refine ⟨[], h, rfl, ?_⟩
            rw [show w.after [] = w from rfl, World.answer_eq, hw]
            cases hbuild : Model.build (w.mapping k) with
            | ok m => simpa [remembered, hbuild, Except.toOption] using hstep
            | error e => simp [remembered, hbuild, Except.toOption] at hstep
          · simp [remembered, hk] at hstep
  · rintro ⟨before, rest, rfl, hm⟩
    have hafter : w.after (before ++ .lookUp key :: rest) =
        ((w.after before).step (.lookUp key)).after rest := World.after_append _
    rw [hafter]
    exact World.find?_after_of_kept (World.find?_step_of_answer hm)

/-! ### One type among others -/

theorem current_filter (key : Key) (mapping : Mapping) (h : List (Event Key)) :
    current key mapping (h.filter (·.key = key)) = current key mapping h := by
  induction h generalizing mapping with
  | nil => rfl
  | cons e h ih =>
    rw [current_cons key mapping e h, List.filter_cons]
    by_cases hk : e.key = key
    · rw [if_pos (by simpa using hk), current_cons, ih]
    · rw [if_neg (by simpa using hk), ih]
      cases e with
      | change k new => simp [current, show ¬ k = key from hk]
      | lookUp k => rfl

theorem remembered_filter (key : Key) (mapping : Mapping) (h : List (Event Key)) :
    remembered key mapping (h.filter (·.key = key)) = remembered key mapping h := by
  induction h generalizing mapping with
  | nil => rfl
  | cons e h ih =>
    rw [remembered_cons key mapping e h, List.filter_cons]
    by_cases hk : e.key = key
    · rw [if_pos (by simpa using hk), remembered_cons, ih]
    · rw [if_neg (by simpa using hk), ih]
      cases e with
      | change k new => simp [remembered, current, show ¬ k = key from hk]
      | lookUp k => simp [remembered, current, show ¬ k = key from hk]

/-- What a type is answered depends on the events of the type only. -/
theorem World.answer_filter {w : World Key} {h : List (Event Key)} {key : Key} :
    (w.after (h.filter (·.key = key))).answer key = (w.after h).answer key := by
  rw [answer_eq, answer_eq, find?_after, find?_after, mapping_after, mapping_after,
    remembered_filter, current_filter]

/-! ### The number of models -/

/-- The types of which a registry keeps a model. -/
def keys (r : Registry Key) : List Key := r.entries.map Prod.fst

theorem mem_keys {r : Registry Key} {key : Key} :
    key ∈ r.keys ↔ ∃ m, r.find? key = some m := by
  rw [← Option.ne_none_iff_exists', find?, Ne, List.lookup_eq_none_iff, keys, List.mem_map]
  simp only [bne_iff_ne, ne_eq, not_forall, not_not, exists_prop, eq_comm (a := key)]

omit [DecidableEq Key] in
theorem isEmpty_iff {r : Registry Key} : r.isEmpty = true ↔ r.keys = [] := by
  rw [isEmpty, List.isEmpty_iff, keys, List.map_eq_nil_iff]

theorem nodup_keys_get {r : Registry Key} (hr : r.keys.Nodup) (key : Key) (mapping : Mapping) :
    (r.get key mapping).2.1.keys.Nodup := by
  cases hfind : r.find? key with
  | some m => rwa [get_of_find?_eq_some hfind]
  | none =>
    cases hbuild : Model.build mapping with
    | error e => rwa [get_of_build_eq_error hfind hbuild]
    | ok m =>
      rw [get_of_build_eq_ok hfind hbuild]
      refine List.nodup_cons.mpr ⟨fun hmem => ?_, hr⟩
      obtain ⟨m', hm'⟩ := mem_keys.mp hmem
      rw [hfind] at hm'
      cases hm'

theorem World.nodup_keys_after {w : World Key} (hw : w.registry.keys.Nodup)
    (h : List (Event Key)) : (w.after h).registry.keys.Nodup := by
  induction h generalizing w with
  | nil => exact hw
  | cons e h ih =>
    refine ih ?_
    cases e with
    | change k mapping => exact hw
    | lookUp k => exact nodup_keys_get hw k (w.mapping k)

/-! ### Everything about histories -/

/-- What a registry does over time, from a start without models. -/
structure Remembers (w : World Key) : Prop where
  /-- Once a lookup is answered by a model, every later one of the type is answered by it too, and
  no mapping is consulted for it. -/
  kept : ∀ before between key m, (w.after before).answer key = .ok m →
    (w.after (before ++ .lookUp key :: between)).answer key = .ok m ∧
      (w.after (before ++ .lookUp key :: between)).consults key = false
  /-- A model is answered because it was before, or because the mapping of the moment gives it. -/
  built : ∀ h key m, (w.after h).answer key = .ok m →
    Succeeds w h key m ∨ Model.build ((w.after h).mapping key) = .ok m
  /-- A lookup that fails says what is wrong with the mapping of the moment, and changes nothing. -/
  failed : ∀ h key e, (w.after h).answer key = .error e →
    Model.build ((w.after h).mapping key) = .error e ∧ w.after (h ++ [.lookUp key]) = w.after h
  /-- Events of other types make no difference to a type. -/
  alone : ∀ h key, (w.after (h.filter (·.key = key))).answer key = (w.after h).answer key
  /-- There are as many models as types that were answered by one. -/
  size : ∀ h, ∃ keys : List Key, keys.Nodup ∧ (∀ key, key ∈ keys ↔ ∃ m, Succeeds w h key m) ∧
    (w.after h).registry.size = keys.length
  /-- There is no model as long as no lookup was answered by one. -/
  isEmpty : ∀ h, (w.after h).registry.isEmpty = true ↔ ∀ key m, ¬ Succeeds w h key m

/-- **A registry remembers the first success of each type and nothing else.** -/
theorem remembers (mapping : Key → Mapping) : Remembers (World.start mapping) where
  kept := by
    intro before between key m hm
    have hfind : ((World.start mapping).after
        (before ++ .lookUp key :: between)).registry.find? key = some m :=
      (find?_after_iff rfl).mpr ⟨before, between, rfl, hm⟩
    rw [World.answer_eq, World.consults_eq, hfind]
    exact ⟨rfl, rfl⟩
  built := by
    intro h key m hm
    rw [World.answer_eq] at hm
    cases hfind : ((World.start mapping).after h).registry.find? key with
    | none =>
      simp only [hfind] at hm
      exact .inr hm
    | some m' =>
      simp only [hfind, Except.ok.injEq] at hm
      exact .inl (hm ▸ (find?_after_iff rfl).mp hfind)
  failed := by
    intro h key e he
    obtain ⟨hbuild, hstep⟩ := World.step_of_answer_eq_error he
    exact ⟨hbuild, by rw [World.after_append]; exact hstep⟩
  alone := fun h key => World.answer_filter
  size := by
    intro h
    refine ⟨_, World.nodup_keys_after (w := World.start mapping) List.nodup_nil h, fun key => ?_,
      (List.length_map Prod.fst).symm⟩
    simp only [mem_keys, find?_after_iff (w := World.start mapping) rfl]
  isEmpty := by
    intro h
    rw [isEmpty_iff, List.eq_nil_iff_forall_not_mem]
    refine forall_congr' fun key => ?_
    simp only [mem_keys, find?_after_iff (w := World.start mapping) rfl, not_exists]

end EntitySql.Registry
