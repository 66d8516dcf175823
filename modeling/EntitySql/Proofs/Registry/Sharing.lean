import EntitySql.Proofs.Registry.History
import Mathlib.Logic.Relation

/-!
# A registry that is shared

Several callers look up types in one registry, which a lock guards. A caller that has the lock looks
whether the model is there, consults the mapping if not, builds a model and keeps it, and gives the
lock back with the answer. Mappings change whenever they like, also between two of these steps; and
a mapping may fail to return, in which case the lock goes to the next caller as it is.

Callers do not take turns, but what they are answered is what some turns would give. The state has a
log of the changes and lookups as if each had happened at once: a lookup enters it when the caller
finds the model, or else when it consults the mapping. No move reads the log; it is there to say
what the answers mean. Between consulting the mapping and keeping the model the registry lags behind
the log by one model, and nobody else can look at it then.

## Main definitions

* `Registry.Shared`, `Registry.Move`: callers of a shared registry, and what they can do next
* `Registry.Shared.IsLinear`: the answers are those of the log

## Main results

* `Registry.Shared.Sound.move`: what every move preserves
* `Registry.remembers_shared`: a shared registry remembers the first success of each type, in
  whatever order its callers move
-/

namespace EntitySql.Registry

variable {Key Caller : Type}

/-- Where a caller is in a lookup. -/
inductive Phase (Key : Type) where
  /-- It looks nothing up. -/
  | idle
  /-- It waits for the lock. -/
  | waiting (key : Key)
  /-- It has the lock. -/
  | inside (key : Key)
  /-- It has the lock and has found no model. -/
  | missing (key : Key)
  /-- It has the lock and has built a model, or has not been able to. -/
  | built (key : Key) (result : Except Error Model)
  /-- It has its answer. -/
  | answered (key : Key) (result : Except Error Model)

/-- Whether a caller has the lock. -/
def Phase.isInside : Phase Key → Bool
  | inside _ | missing _ | built _ _ => true
  | idle | waiting _ | answered _ _ => false

/-- What the log records. -/
inductive Entry (Key Caller : Type) where
  /-- The mapping of a type became another. -/
  | change (key : Key) (mapping : Mapping)
  /-- A caller looked a type up. -/
  | lookUp (caller : Caller) (key : Key)

/-- What an entry says that happened. -/
def Entry.event : Entry Key Caller → Event Key
  | change key mapping => .change key mapping
  | lookUp _ key => .lookUp key

/-- An entry is about a lookup of the caller. -/
def Entry.IsBy (c : Caller) : Entry Key Caller → Prop
  | change _ _ => False
  | lookUp caller _ => caller = c

/-- A registry and its callers. -/
structure Shared (Key Caller : Type) where
  /-- The mapping that each type has. -/
  mapping : Key → Mapping
  /-- The registry. -/
  registry : Registry Key := {}
  /-- The caller that has the lock. -/
  holder : Option Caller := none
  /-- Where each caller is. -/
  phase : Caller → Phase Key := fun _ => .idle
  /-- The changes and lookups so far, as if each had happened at once. -/
  log : List (Entry Key Caller) := []
  /-- The length of the log when each caller began its lookup. -/
  began : Caller → Nat := fun _ => 0

/-- The state at the start: nobody looks anything up, and nothing has happened. -/
def Shared.start (mapping : Key → Mapping) : Shared Key Caller := { mapping }

/-- The history that the log tells. -/
def Shared.history (s : Shared Key Caller) : List (Event Key) := s.log.map Entry.event

section

variable [DecidableEq Key] [DecidableEq Caller]

/-- What can happen next. -/
inductive Move : Shared Key Caller → Shared Key Caller → Prop
  /-- A mapping becomes another. -/
  | change (s : Shared Key Caller) (key : Key) (mapping : Mapping) :
    Move s { s with
      mapping := Function.update s.mapping key mapping
      log := s.log ++ [.change key mapping] }
  /-- A caller begins a lookup. -/
  | call {s : Shared Key Caller} {c : Caller} (key : Key) (h : s.phase c = .idle) :
    Move s { s with
      phase := Function.update s.phase c (.waiting key)
      began := Function.update s.began c s.log.length }
  /-- It takes the lock. -/
  | acquire {s : Shared Key Caller} {c : Caller} {key : Key} (h : s.phase c = .waiting key)
      (free : s.holder = none) :
    Move s { s with holder := some c, phase := Function.update s.phase c (.inside key) }
  /-- It finds the model and is done. -/
  | hit {s : Shared Key Caller} {c : Caller} {key : Key} {m : Model} (h : s.phase c = .inside key)
      (found : s.registry.find? key = some m) :
    Move s { s with
      holder := none
      phase := Function.update s.phase c (.answered key (.ok m))
      log := s.log ++ [.lookUp c key] }
  /-- It finds no model. -/
  | miss {s : Shared Key Caller} {c : Caller} {key : Key} (h : s.phase c = .inside key)
      (absent : s.registry.find? key = none) :
    Move s { s with phase := Function.update s.phase c (.missing key) }
  /-- It consults the mapping and builds a model. -/
  | consult {s : Shared Key Caller} {c : Caller} {key : Key} (h : s.phase c = .missing key) :
    Move s { s with
      phase := Function.update s.phase c (.built key (Model.build (s.mapping key)))
      log := s.log ++ [.lookUp c key] }
  /-- It keeps the model and is done. -/
  | keep {s : Shared Key Caller} {c : Caller} {key : Key} {m : Model}
      (h : s.phase c = .built key (.ok m)) :
    Move s { s with
      registry := ⟨(key, m) :: s.registry.entries⟩
      holder := none
      phase := Function.update s.phase c (.answered key (.ok m)) }
  /-- There is no model, and it is done. -/
  | fail {s : Shared Key Caller} {c : Caller} {key : Key} {e : Error}
      (h : s.phase c = .built key (.error e)) :
    Move s { s with
      holder := none
      phase := Function.update s.phase c (.answered key (.error e)) }
  /-- The mapping does not return, and the lock is free again. -/
  | abandon {s : Shared Key Caller} {c : Caller} {key : Key} (h : s.phase c = .missing key) :
    Move s { s with holder := none, phase := Function.update s.phase c .idle }
  /-- A caller takes its answer away. -/
  | leave {s : Shared Key Caller} {c : Caller} {key : Key} {result : Except Error Model}
      (h : s.phase c = .answered key result) :
    Move s { s with phase := Function.update s.phase c .idle }

end

/-! ### Where a call is in the log -/

section

variable [DecidableEq Key] {w : World Key} {log : List (Entry Key Caller)} {c : Caller} {n : Nat}

/-- A call that began at that place of the log has no entry yet. -/
def NotYet (log : List (Entry Key Caller)) (c : Caller) (n : Nat) : Prop :=
  n ≤ log.length ∧ ∀ e ∈ log.drop n, ¬ e.IsBy c

/-- A call that began at that place of the log has one entry behind it, and its answer is what a
lookup is answered there. -/
def Answers (w : World Key) (log : List (Entry Key Caller)) (c : Caller) (n : Nat) (key : Key)
    (result : Except Error Model) : Prop :=
  ∃ before rest, log = before ++ .lookUp c key :: rest ∧ NotYet before c n ∧
    (∀ e ∈ rest, ¬ e.IsBy c) ∧ (w.after (before.map Entry.event)).answer key = result

/-- What a call has to do with the log, depending on where it is. -/
def Recorded (w : World Key) (log : List (Entry Key Caller)) (c : Caller) (n : Nat) :
    Phase Key → Prop
  | .idle => True
  | .waiting _ | .inside _ | .missing _ => NotYet log c n
  | .built key result | .answered key result => Answers w log c n key result

omit [DecidableEq Key] in
theorem notYet_length : NotYet log c log.length := by
  simp [NotYet]

omit [DecidableEq Key] in
theorem NotYet.append {e : Entry Key Caller} (h : NotYet log c n) (he : ¬ e.IsBy c) :
    NotYet (log ++ [e]) c n := by
  obtain ⟨hn, hnone⟩ := h
  refine ⟨by rw [List.length_append]; omega, fun a ha => ?_⟩
  rw [List.drop_append_of_le_length hn] at ha
  rcases List.mem_append.mp ha with ha | ha
  · exact hnone a ha
  · rwa [List.mem_singleton.mp ha]

theorem NotYet.answers {key : Key} (h : NotYet log c n) :
    Answers w (log ++ [.lookUp c key]) c n key ((w.after (log.map Entry.event)).answer key) :=
  ⟨log, [], rfl, h, fun _ he => absurd he List.not_mem_nil, rfl⟩

theorem Answers.append {key : Key} {result : Except Error Model} {e : Entry Key Caller}
    (h : Answers w log c n key result) (he : ¬ e.IsBy c) :
    Answers w (log ++ [e]) c n key result := by
  obtain ⟨before, rest, rfl, hbefore, hrest, hresult⟩ := h
  refine ⟨before, rest ++ [e], by simp, hbefore, fun a ha => ?_, hresult⟩
  rcases List.mem_append.mp ha with ha | ha
  · exact hrest a ha
  · rwa [List.mem_singleton.mp ha]

/-- What others do does not change it. -/
theorem Recorded.append {p : Phase Key} {e : Entry Key Caller} (h : Recorded w log c n p)
    (he : ¬ e.IsBy c) : Recorded w (log ++ [e]) c n p := by
  cases p with
  | idle => trivial
  | waiting key | inside key | missing key => exact NotYet.append h he
  | built key result | answered key result => exact Answers.append h he

end

namespace Shared

variable [DecidableEq Key] [DecidableEq Caller] {w : World Key} {s : Shared Key Caller}
  {c : Caller} {key : Key}

/-- What holds of a registry and its callers at any time, where `w` is the world at the start. -/
structure Sound (w : World Key) (s : Shared Key Caller) : Prop where
  /-- The mappings are those of the history. -/
  mapping : s.mapping = (w.after s.history).mapping
  /-- The registry is that of the history, unless a model is still to be kept. -/
  registry : (∀ c key m, s.phase c ≠ .built key (.ok m)) →
    s.registry = (w.after s.history).registry
  /-- With that model it is. -/
  pending : ∀ c key m, s.phase c = .built key (.ok m) →
    ⟨(key, m) :: s.registry.entries⟩ = (w.after s.history).registry
  /-- The lock is held by the caller that is inside. -/
  holder : ∀ c, s.holder = some c ↔ (s.phase c).isInside = true
  /-- A model that was not found is not there. -/
  missing : ∀ c key, s.phase c = .missing key → s.registry.find? key = none
  /-- Calls are recorded once. -/
  calls : ∀ c, Recorded w s.log c (s.began c) (s.phase c)

/-- The answers are those of the log, one entry for each call and at a time when the call was under
way; and whoever is about to consult a mapping looks up a type that no lookup has succeeded for. -/
structure IsLinear (w : World Key) (s : Shared Key Caller) : Prop where
  mapping : s.mapping = (w.after s.history).mapping
  registry : s.holder = none → s.registry = (w.after s.history).registry
  answered : ∀ c key result, s.phase c = .answered key result →
    Answers w s.log c (s.began c) key result
  consults : ∀ c key, s.phase c = .missing key → ∀ m, ¬ Succeeds w s.history key m

/-! ### What every move preserves -/

omit [DecidableEq Caller] in
/-- A caller inside is the only one. -/
theorem Sound.eq_of_isInside (h : Sound w s) {a b : Caller} (ha : (s.phase a).isInside = true)
    (hb : (s.phase b).isInside = true) : a = b :=
  Option.some.inj (((h.holder a).mpr ha).symm.trans ((h.holder b).mpr hb))

omit [DecidableEq Caller] in
/-- While a caller inside has built no model, the registry is that of the history. -/
theorem Sound.registry_of_isInside (h : Sound w s) (hc : (s.phase c).isInside = true)
    (hbuilt : ∀ key m, s.phase c ≠ .built key (.ok m)) :
    s.registry = (w.after s.history).registry := by
  refine h.registry fun a key m ha => ?_
  obtain rfl := h.eq_of_isInside (by rw [ha]; rfl) hc
  exact hbuilt key m ha

/-- Who has the lock after a caller moved on: it stays as it is, -/
theorem Sound.holder_stay (h : Sound w s) {p : Phase Key}
    (hp : p.isInside = (s.phase c).isInside) (a : Caller) :
    s.holder = some a ↔ (Function.update s.phase c p a).isInside = true := by
  rw [h.holder]
  by_cases hac : a = c
  · subst hac
    rw [Function.update_self, hp]
  · rw [Function.update_of_ne hac]

/-- the caller takes it, -/
theorem Sound.holder_take (h : Sound w s) (hfree : s.holder = none) {p : Phase Key}
    (hp : p.isInside = true) (a : Caller) :
    some c = some a ↔ (Function.update s.phase c p a).isInside = true := by
  by_cases hac : a = c
  · subst hac
    simp [hp]
  · have hout : (s.phase a).isInside = false := by
      rw [Bool.eq_false_iff]
      intro ha
      rw [(h.holder a).mpr ha] at hfree
      cases hfree
    rw [Function.update_of_ne hac, hout]
    simp [Ne.symm hac]

/-- or the caller gives it back. -/
theorem Sound.holder_release (h : Sound w s) (hc : (s.phase c).isInside = true) {p : Phase Key}
    (hp : p.isInside = false) (a : Caller) :
    none = some a ↔ (Function.update s.phase c p a).isInside = true := by
  by_cases hac : a = c
  · subst hac
    simp [hp]
  · have hout : ¬ (s.phase a).isInside = true := fun ha => hac (h.eq_of_isInside ha hc)
    rw [Function.update_of_ne hac]
    simp [hout]

/-- A move of one caller that leaves the mappings, the registry and the log alone. -/
theorem Sound.turn (h : Sound w s) {p : Phase Key} {o : Option Caller}
    (hold : ∀ key m, s.phase c ≠ .built key (.ok m)) (hnew : ∀ key m, p ≠ .built key (.ok m))
    (hcall : Recorded w s.log c (s.began c) (s.phase c) → Recorded w s.log c (s.began c) p)
    (hholder : ∀ a, o = some a ↔ (Function.update s.phase c p a).isInside = true)
    (hmissing : ∀ key, p = .missing key → s.registry.find? key = none) :
    Sound w { s with holder := o, phase := Function.update s.phase c p } where
  mapping := h.mapping
  registry := by
    intro hbuilt
    refine h.registry fun a key m ha => ?_
    by_cases hac : a = c
    · subst hac
      exact hold key m ha
    · refine hbuilt a key m ?_
      simpa only [Function.update_of_ne hac] using ha
  pending := by
    intro a key m ha
    by_cases hac : a = c
    · subst hac
      simp only [Function.update_self] at ha
      exact absurd ha (hnew key m)
    · simp only [Function.update_of_ne hac] at ha
      exact h.pending a key m ha
  holder := hholder
  missing := by
    intro a key ha
    by_cases hac : a = c
    · subst hac
      simp only [Function.update_self] at ha
      exact hmissing key ha
    · simp only [Function.update_of_ne hac] at ha
      exact h.missing a key ha
  calls := by
    intro a
    by_cases hac : a = c
    · subst hac
      simp only [Function.update_self]
      exact hcall (h.calls a)
    · simp only [Function.update_of_ne hac]
      exact h.calls a

/-- A move by which a lookup enters the log. The caller is inside, so nobody else looks at the
registry, and what it is told is what the history answers. -/
theorem Sound.enter (h : Sound w s) {p : Phase Key} {o : Option Caller}
    (hinside : (s.phase c).isInside = true) (hbuilt : ∀ key m, s.phase c ≠ .built key (.ok m))
    (hcall : NotYet s.log c (s.began c))
    (hnew : Recorded w (s.log ++ [.lookUp c key]) c (s.began c) p)
    (hholder : ∀ a, o = some a ↔ (Function.update s.phase c p a).isInside = true)
    (hmissing : ∀ key, p ≠ .missing key)
    (hregistry : (∀ key m, p ≠ .built key (.ok m)) →
      s.registry = ((w.after s.history).step (.lookUp key)).registry)
    (hpending : ∀ k m, p = .built k (.ok m) →
      ⟨(k, m) :: s.registry.entries⟩ = ((w.after s.history).step (.lookUp key)).registry) :
    Sound w { s with
      holder := o, phase := Function.update s.phase c p, log := s.log ++ [.lookUp c key] } := by
  have hout : ∀ a, a ≠ c → (s.phase a).isInside = false := fun a hac =>
    Bool.eq_false_iff.mpr fun ha => hac (h.eq_of_isInside ha hinside)
  have hafter : w.after ((s.log ++ [Entry.lookUp c key]).map Entry.event) =
      (w.after s.history).step (.lookUp key) := by
    rw [List.map_append, World.after_append]
    rfl
  refine ⟨?_, ?_, ?_, hholder, ?_, ?_⟩
  · have hmapping : (w.after s.history).mapping =
        ((w.after s.history).step (.lookUp key)).mapping := rfl
    exact (h.mapping.trans hmapping).trans (congrArg World.mapping hafter.symm)
  · intro hnone
    refine (hregistry fun k m hp => hnone c k m ?_).trans (congrArg World.registry hafter.symm)
    simpa only [Function.update_self] using hp
  · intro a k m ha
    by_cases hac : a = c
    · subst hac
      simp only [Function.update_self] at ha
      exact (hpending k m ha).trans (congrArg World.registry hafter.symm)
    · simp only [Function.update_of_ne hac] at ha
      have hfalse := hout a hac
      rw [ha] at hfalse
      cases hfalse
  · intro a k ha
    by_cases hac : a = c
    · subst hac
      simp only [Function.update_self] at ha
      exact absurd ha (hmissing k)
    · simp only [Function.update_of_ne hac] at ha
      exact h.missing a k ha
  · intro a
    by_cases hac : a = c
    · subst hac
      simpa only [Function.update_self] using hnew
    · simp only [Function.update_of_ne hac]
      exact (h.calls a).append fun hby => hac (Eq.symm hby)

omit [DecidableEq Caller] in
/-- A mapping that becomes another enters the log, and concerns no caller. -/
theorem Sound.change (h : Sound w s) (key : Key) (mapping : Mapping) :
    Sound w { s with
      mapping := Function.update s.mapping key mapping
      log := s.log ++ [.change key mapping] } := by
  have hafter : w.after ((s.log ++ [Entry.change key mapping]).map Entry.event) =
      (w.after s.history).step (.change key mapping) := by
    rw [List.map_append, World.after_append]
    rfl
  have hregistry : (w.after s.history).registry =
      ((w.after s.history).step (.change key mapping)).registry := rfl
  refine ⟨?_, fun hnone => ?_, fun c k m hc => ?_, h.holder, h.missing,
    fun c => (h.calls c).append id⟩
  · refine Eq.trans ?_ (congrArg World.mapping hafter.symm)
    rw [World.step, h.mapping]
  · exact ((h.registry hnone).trans hregistry).trans (congrArg World.registry hafter.symm)
  · exact ((h.pending c k m hc).trans hregistry).trans (congrArg World.registry hafter.symm)

/-- A caller that begins a lookup takes down the length of the log. -/
theorem Sound.call (h : Sound w s) (key : Key) (hc : s.phase c = .idle) :
    Sound w { s with
      phase := Function.update s.phase c (.waiting key)
      began := Function.update s.began c s.log.length } := by
  have hbegan : Sound w { s with began := Function.update s.began c s.log.length } := by
    refine ⟨h.mapping, h.registry, h.pending, h.holder, h.missing, fun a => ?_⟩
    by_cases hac : a = c
    · subst hac
      simp only [hc]
      trivial
    · simp only [Function.update_of_ne hac]
      exact h.calls a
  refine hbegan.turn (by simp [hc]) (by simp) (fun _ => ?_) (h.holder_stay (by rw [hc]; rfl))
    (by simp)
  simp only [Function.update_self]
  exact notYet_length

/-- A caller that finds the model is told what the history answers. -/
theorem Sound.hit (h : Sound w s) {m : Model} (hc : s.phase c = .inside key)
    (hfound : s.registry.find? key = some m) :
    Sound w { s with
      holder := none
      phase := Function.update s.phase c (.answered key (.ok m))
      log := s.log ++ [.lookUp c key] } := by
  have hinside : (s.phase c).isInside = true := by rw [hc]; rfl
  have hcall : NotYet s.log c (s.began c) := by
    have hrecorded := h.calls c
    rwa [hc] at hrecorded
  have hregistry := h.registry_of_isInside hinside (by simp [hc])
  have hkept : (w.after s.history).registry.find? key = some m := hregistry ▸ hfound
  refine h.enter hinside (by simp [hc]) hcall ?_ (h.holder_release hinside rfl) (by simp)
    (fun _ => ?_) (by simp)
  · have hanswer : (w.after s.history).answer key = .ok m := by
      rw [World.answer_eq, hkept]
    exact hanswer ▸ hcall.answers
  · rw [hregistry, World.step, get_of_find?_eq_some hkept]

/-- So is one that consults the mapping. -/
theorem Sound.consult (h : Sound w s) (hc : s.phase c = .missing key) :
    Sound w { s with
      phase := Function.update s.phase c (.built key (Model.build (s.mapping key)))
      log := s.log ++ [.lookUp c key] } := by
  have hinside : (s.phase c).isInside = true := by rw [hc]; rfl
  have hcall : NotYet s.log c (s.began c) := by
    have hrecorded := h.calls c
    rwa [hc] at hrecorded
  have hregistry := h.registry_of_isInside hinside (by simp [hc])
  have habsent : (w.after s.history).registry.find? key = none := hregistry ▸ h.missing c key hc
  have hmapping : s.mapping key = (w.after s.history).mapping key := congrFun h.mapping key
  refine h.enter hinside (by simp [hc]) hcall ?_ (h.holder_stay (by rw [hc]; rfl)) (by simp)
    (fun hfails => ?_) (fun k m hbuilt => ?_)
  · have hanswer : (w.after s.history).answer key = Model.build (s.mapping key) := by
      rw [World.answer_eq, habsent, hmapping]
    exact hanswer ▸ hcall.answers
  · cases hbuild : Model.build (s.mapping key) with
    | ok m => exact absurd rfl (hbuild ▸ hfails key m)
    | error e =>
      rw [hmapping] at hbuild
      rw [hregistry, World.step, get_of_build_eq_error habsent hbuild]
  · obtain ⟨rfl, hbuild⟩ := Phase.built.inj hbuilt
    rw [hmapping] at hbuild
    rw [hregistry, World.step, get_of_build_eq_ok habsent hbuild]

/-- A caller that keeps its model catches up with the history. -/
theorem Sound.keep (h : Sound w s) {m : Model} (hc : s.phase c = .built key (.ok m)) :
    Sound w { s with
      registry := ⟨(key, m) :: s.registry.entries⟩
      holder := none
      phase := Function.update s.phase c (.answered key (.ok m)) } := by
  have hinside : (s.phase c).isInside = true := by rw [hc]; rfl
  have hout : ∀ a, a ≠ c → (s.phase a).isInside = false := fun a hac =>
    Bool.eq_false_iff.mpr fun ha => hac (h.eq_of_isInside ha hinside)
  have hother : ∀ a, a ≠ c → ∀ p : Phase Key, p.isInside = true → s.phase a ≠ p := by
    rintro a hac p hp rfl
    rw [hout a hac] at hp
    cases hp
  refine ⟨h.mapping, fun _ => h.pending c key m hc, fun a k m' ha => ?_,
    h.holder_release hinside rfl, fun a k ha => ?_, fun a => ?_⟩
  · by_cases hac : a = c
    · subst hac
      simp at ha
    · simp only [Function.update_of_ne hac] at ha
      exact absurd ha (hother a hac _ rfl)
  · by_cases hac : a = c
    · subst hac
      simp at ha
    · simp only [Function.update_of_ne hac] at ha
      exact absurd ha (hother a hac _ rfl)
  · by_cases hac : a = c
    · subst hac
      have hrecorded := h.calls a
      rw [hc] at hrecorded
      simp only [Function.update_self]
      exact hrecorded
    · simp only [Function.update_of_ne hac]
      exact h.calls a

/-- **Every move preserves it.** -/
theorem Sound.move {s' : Shared Key Caller} (h : Sound w s) (hmove : Move s s') : Sound w s' := by
  cases hmove with
  | change key mapping => exact h.change key mapping
  | call key hc => exact h.call key hc
  | acquire hc hfree =>
    refine h.turn (by simp [hc]) (by simp) (by rw [hc]; exact id) (h.holder_take hfree rfl)
      (by simp)
  | hit hc hfound => exact h.hit hc hfound
  | miss hc habsent =>
    refine h.turn (by simp [hc]) (by simp) (by rw [hc]; exact id)
      (h.holder_stay (by rw [hc]; rfl)) ?_
    rintro k ⟨⟩
    exact habsent
  | consult hc => exact h.consult hc
  | keep hc => exact h.keep hc
  | fail hc =>
    refine h.turn (by simp [hc]) (by simp) (by rw [hc]; exact id)
      (h.holder_release (by rw [hc]; rfl) rfl) (by simp)
  | abandon hc =>
    refine h.turn (by simp [hc]) (by simp) (fun _ => trivial)
      (h.holder_release (by rw [hc]; rfl) rfl) (by simp)
  | leave hc =>
    refine h.turn (by simp [hc]) (by simp) (fun _ => trivial)
      (h.holder_stay (by rw [hc]; rfl)) (by simp)

omit [DecidableEq Caller] in
theorem sound_start (mapping : Key → Mapping) :
    Sound (World.start mapping) (start mapping : Shared Key Caller) where
  mapping := rfl
  registry := fun _ => rfl
  pending := by
    rintro c key m ⟨⟩
  holder := by
    intro c
    constructor <;> rintro ⟨⟩
  missing := by
    rintro c key ⟨⟩
  calls := fun _ => trivial

/-- So it holds behind every run. -/
theorem sound_of_run {s' : Shared Key Caller} (h : Sound w s)
    (hrun : Relation.ReflTransGen Move s s') : Sound w s' := by
  induction hrun with
  | refl => exact h
  | tail _ hmove ih => exact ih.move hmove

omit [DecidableEq Caller] in
/-- What always holds says that the answers are those of the log. -/
theorem Sound.isLinear {mapping : Key → Mapping} {s : Shared Key Caller}
    (h : Sound (World.start mapping) s) : s.IsLinear (World.start mapping) where
  mapping := h.mapping
  registry := by
    intro hfree
    refine h.registry fun c key m hc => ?_
    rw [(h.holder c).mpr (by rw [hc]; rfl)] at hfree
    cases hfree
  answered := by
    intro c key result hc
    have hrecorded := h.calls c
    rwa [hc] at hrecorded
  consults := by
    intro c key hc m hsucceeds
    have hregistry := h.registry_of_isInside (c := c) (by rw [hc]; rfl) (by simp [hc])
    have hkept := (find?_after_iff rfl).mpr hsucceeds
    rw [← hregistry, h.missing c key hc] at hkept
    cases hkept

end Shared

/-- **A registry remembers the first success of each type and nothing else**, and callers that share
it are answered as if they had taken turns. -/
theorem remembers_shared [DecidableEq Key] [DecidableEq Caller] (mapping : Key → Mapping)
    {s : Shared Key Caller} (hrun : Relation.ReflTransGen Move (Shared.start mapping) s) :
    Remembers (World.start mapping) ∧ s.IsLinear (World.start mapping) :=
  ⟨remembers mapping, (Shared.sound_of_run (Shared.sound_start mapping) hrun).isLinear⟩

/-- A caller begins while another has the lock, and the mapping changes before that one keeps its
model. Both get the model of the old mapping. -/
theorem remembers_shared_overtaken :
    ∃ mapping : Unit → Mapping, ∃ s : Shared Unit Bool, ∃ m,
      Relation.ReflTransGen Move (Shared.start mapping) s ∧ m.name = "old" ∧
        (s.mapping ()).name = "new" ∧ s.phase true = .answered () (.ok m) ∧
        s.phase false = .answered () (.ok m) ∧
        Remembers (World.start mapping) ∧ s.IsLinear (World.start mapping) := by
  have hrun := (Relation.ReflTransGen.refl (r := Move) (a := (Shared.start fun _ =>
      { name := "old", fields := [{ name := "id", spelling := "i64" }] } : Shared Unit Bool)))
    |>.tail (Move.call (c := true) () rfl)
    |>.tail (Move.acquire (c := true) rfl rfl)
    |>.tail (Move.miss (c := true) rfl rfl)
    |>.tail (Move.call (c := false) () rfl)
    |>.tail (Move.consult (c := true) rfl)
    |>.tail (Move.change _ () { name := "new" })
    |>.tail (Move.keep (c := true) rfl)
    |>.tail (Move.acquire (c := false) rfl rfl)
    |>.tail (Move.hit (c := false) rfl rfl)
  exact ⟨_, _, _, hrun, rfl, rfl, rfl, rfl, remembers_shared _ hrun⟩

end EntitySql.Registry
