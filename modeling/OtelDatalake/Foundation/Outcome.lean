import Mathlib.Data.List.Forall2

namespace OtelDatalake.Foundation

variable {Error α β : Type}

theorem bind_ok {first : Except Error α} {rest : α → Except Error β} {result : β} :
    (first >>= rest) = .ok result ↔ ∃ value, first = .ok value ∧ rest value = .ok result := by
  cases first with
  | error error => exact ⟨(nomatch ·), fun ⟨_, eq, _⟩ => nomatch eq⟩
  | ok value => exact ⟨fun eq => ⟨value, rfl, eq⟩, fun ⟨_, eq, done⟩ => Except.ok.inj eq ▸ done⟩

theorem mapM_ok {f : α → Except Error β} {inputs : List α} {outputs : List β}
    (mapped : inputs.mapM f = .ok outputs) : List.Forall₂ (fun input output => f input = .ok output) inputs outputs := by
  induction inputs generalizing outputs with
  | nil =>
    cases mapped
    exact .nil
  | cons input rest ih =>
    rw [List.mapM_cons] at mapped
    cases first : f input with
    | error error =>
      rw [first] at mapped
      cases mapped
    | ok output =>
      rw [first] at mapped
      cases others : rest.mapM f with
      | error error =>
        rw [others] at mapped
        cases mapped
      | ok outputs =>
        rw [others] at mapped
        cases mapped
        exact .cons first (ih others)

theorem mapM_cons_ok {f : α → Except Error β} {input : α} {rest : List α} {outputs : List β} :
    (input :: rest).mapM f = .ok outputs ↔
      ∃ first others, f input = .ok first ∧ rest.mapM f = .ok others ∧ outputs = first :: others := by
  rw [List.mapM_cons, bind_ok]
  refine exists_congr fun first => ?_
  rw [bind_ok]
  constructor
  · rintro ⟨made, others, mapped, ⟨⟩⟩
    exact ⟨others, made, mapped, rfl⟩
  · rintro ⟨others, made, mapped, rfl⟩
    exact ⟨made, others, mapped, rfl⟩

theorem mapM_ok_mem {f : α → Except Error β} {inputs : List α} {outputs : List β} {input : α}
    (mapped : inputs.mapM f = .ok outputs) (member : input ∈ inputs) : ∃ output ∈ outputs, f input = .ok output := by
  have each := mapM_ok mapped
  clear mapped
  induction each with
  | nil => cases member
  | cons first _ ih =>
    rcases List.mem_cons.mp member with rfl | later
    · exact ⟨_, List.mem_cons_self, first⟩
    · obtain ⟨output, listed, made⟩ := ih later
      exact ⟨output, List.mem_cons_of_mem _ listed, made⟩

theorem mapM_ok_mem_output {f : α → Except Error β} {inputs : List α} {outputs : List β} {output : β}
    (mapped : inputs.mapM f = .ok outputs) (member : output ∈ outputs) : ∃ input ∈ inputs, f input = .ok output := by
  have each := mapM_ok mapped
  clear mapped
  induction each with
  | nil => cases member
  | cons first _ ih =>
    rcases List.mem_cons.mp member with rfl | later
    · exact ⟨_, List.mem_cons_self, first⟩
    · obtain ⟨input, listed, made⟩ := ih later
      exact ⟨input, List.mem_cons_of_mem _ listed, made⟩

theorem mapM_ok_forall₂ {f : α → Except Error β} {related : α → β → Prop} {inputs : List α} {outputs : List β}
    (mapped : inputs.mapM f = .ok outputs)
    (each : ∀ input ∈ inputs, ∀ output, f input = .ok output → related input output) :
    List.Forall₂ related inputs outputs := by
  have all := mapM_ok mapped
  clear mapped
  induction all with
  | nil => exact .nil
  | cons first _ ih =>
    rw [List.forall_mem_cons] at each
    exact .cons (each.1 _ first) (ih each.2)

theorem mapM_of_forall {f : α → Except Error β} {g : α → β} {inputs : List α}
    (each : ∀ input ∈ inputs, f input = .ok (g input)) : inputs.mapM f = .ok (inputs.map g) := by
  induction inputs with
  | nil => rfl
  | cons input rest ih =>
    rw [List.forall_mem_cons] at each
    rw [List.mapM_cons, each.1, ih each.2]
    rfl

theorem mapM_ok_of_forall {f : α → Except Error β} {items : List α}
    (each : ∀ item ∈ items, ∃ result, f item = .ok result) : ∃ results, items.mapM f = .ok results := by
  induction items with
  | nil => exact ⟨[], rfl⟩
  | cons item rest ih =>
    obtain ⟨⟨result, here⟩, others⟩ := List.forall_mem_cons.mp each
    obtain ⟨results, following⟩ := ih others
    refine ⟨result :: results, ?_⟩
    rw [List.mapM_cons, here, following]
    rfl

theorem mapM_error {f : α → Except Error β} {inputs : List α} {error : Error}
    (mapped : inputs.mapM f = .error error) : ∃ input ∈ inputs, f input = .error error := by
  induction inputs with
  | nil => cases mapped
  | cons input rest ih =>
    rw [List.mapM_cons] at mapped
    cases first : f input with
    | error failure =>
      rw [first] at mapped
      cases mapped
      exact ⟨input, List.mem_cons_self, first⟩
    | ok output =>
      rw [first] at mapped
      cases others : rest.mapM f with
      | error failure =>
        rw [others] at mapped
        cases mapped
        obtain ⟨found, member, failed⟩ := ih others
        exact ⟨found, List.mem_cons_of_mem _ member, failed⟩
      | ok outputs =>
        rw [others] at mapped
        cases mapped

/-- A step over a scratch state, for each item until one fails. -/
def scanM {State : Type} (step : State → α → Except Error β × State) : State → List α → Except Error (List β) × State
  | state, [] => (.ok [], state)
  | state, item :: rest =>
    match step state item with
    | (.error error, after) => (.error error, after)
    | (.ok result, after) => ((scanM step after rest).1.map (result :: ·), (scanM step after rest).2)

theorem scanM_result {State : Type} {step : State → α → Except Error β × State} {f : α → Except Error β}
    (independent : ∀ state item, (step state item).1 = f item) (state : State) (items : List α) :
    (scanM step state items).1 = items.mapM f := by
  induction items generalizing state with
  | nil => rfl
  | cons item rest ih =>
    rw [List.mapM_cons, ← independent state item, scanM]
    rcases step state item with ⟨error | result, after⟩
    · rfl
    · show (scanM step after rest).1.map (result :: ·) = _
      rw [ih after]
      rfl

theorem mapError_ok {Failure : Type} {outcome : Except Error α} {convert : Error → Failure} {value : α} :
    outcome.mapError convert = .ok value ↔ outcome = .ok value := by
  cases outcome with
  | error error => exact ⟨(nomatch ·), (nomatch ·)⟩
  | ok found =>
    show Except.ok found = .ok value ↔ _
    rw [Except.ok.injEq, Except.ok.injEq]

theorem map_ok {outcome : Except Error α} {f : α → β} {result : β} :
    outcome.map f = .ok result ↔ ∃ value, outcome = .ok value ∧ f value = result := by
  cases outcome with
  | error error => exact ⟨(nomatch ·), fun ⟨_, eq, _⟩ => nomatch eq⟩
  | ok value => exact ⟨fun eq => ⟨value, rfl, Except.ok.inj eq⟩, fun ⟨_, eq, same⟩ => same ▸ Except.ok.inj eq ▸ rfl⟩

theorem forM_ok {f : α → Except Error Unit} {inputs : List α} :
    inputs.forM f = .ok () ↔ ∀ input ∈ inputs, f input = .ok () := by
  induction inputs with
  | nil => exact ⟨fun _ _ member => absurd member List.not_mem_nil, fun _ => rfl⟩
  | cons input rest ih =>
    rw [List.forall_mem_cons, ← ih]
    show (f input >>= fun _ => rest.forM f) = .ok () ↔ _
    cases first : f input with
    | error error => exact ⟨(nomatch ·), fun both => nomatch both.1⟩
    | ok made => exact ⟨fun others => ⟨rfl, others⟩, fun both => both.2⟩

/-- Two lists related element by element satisfy a second relation exactly when each left element satisfies what
    the second relation comes down to. -/
theorem forall₂_iff_forall {related wanted : α → β → Prop} {condition : α → Prop} {left : List α}
    {right : List β} (all : List.Forall₂ related left right)
    (comesDown : ∀ a b, related a b → (wanted a b ↔ condition a)) :
    List.Forall₂ wanted left right ↔ ∀ a ∈ left, condition a := by
  induction all with
  | nil => exact ⟨fun _ _ member => absurd member List.not_mem_nil, fun _ => .nil⟩
  | cons first rest ih => rw [List.forall₂_cons, List.forall_mem_cons, ih, comesDown _ _ first]

/-- What a loop takes in: some entries are bad, and not every list of them fits. An error that `breaks` says that the
    entries up to it do not fit, any other one that there is a bad entry; nothing behind a bad entry is looked at. -/
structure Intake (Entry Error : Type) where
  bad : Entry → Prop
  fits : List Entry → Prop
  breaks : Error → Prop
  fits_of_append : ∀ before after, fits (before ++ after) → fits before
  fits_append : ∀ before after, (∃ entry ∈ before, bad entry) → fits before → fits (before ++ after)

namespace Intake

variable {Entry State : Type} (intake : Intake Entry Error)

/-- The state stands for the entries up to here if all of them are good and they fit. -/
def Collects (stands : List Entry → State → Prop) (result : Except Error State) (entries : List Entry) : Prop :=
  match result with
  | .ok next => (∀ entry ∈ entries, ¬intake.bad entry) ∧ intake.fits entries ∧ stands entries next
  | .error error => (intake.breaks error → ¬intake.fits entries) ∧
      (¬intake.breaks error → (∃ entry ∈ entries, intake.bad entry) ∧ intake.fits entries)

/-- A loop over steps that collect their entries collects the entries of all of its inputs, in their order. -/
theorem foldlM_collects {stands : List Entry → State → Prop} {step : State → α → Except Error State}
    {entriesOf : α → List Entry}
    (collects : ∀ state entries input, intake.Collects stands (.ok state) entries →
      intake.Collects stands (step state input) (entries ++ entriesOf input))
    (inputs : List α) {state : State} {entries : List Entry} (start : intake.Collects stands (.ok state) entries) :
    intake.Collects stands (inputs.foldlM step state) (entries ++ inputs.flatMap entriesOf) := by
  induction inputs generalizing state entries with
  | nil => simpa [pure, Except.pure] using start
  | cons input rest ih =>
    have first := collects state entries input start
    rw [List.foldlM_cons, List.flatMap_cons, ← List.append_assoc]
    cases stepped : step state input with
    | ok next =>
      rw [stepped] at first
      exact ih first
    | error error =>
      rw [stepped] at first
      refine ⟨fun breaks fits => first.1 breaks (intake.fits_of_append _ _ fits), fun refused => ?_⟩
      obtain ⟨⟨entry, member, bad⟩, fits⟩ := first.2 refused
      exact ⟨⟨entry, List.mem_append_left _ member, bad⟩, intake.fits_append _ _ ⟨entry, member, bad⟩ fits⟩

end Intake

end OtelDatalake.Foundation
