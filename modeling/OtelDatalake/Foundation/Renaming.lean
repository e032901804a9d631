import Mathlib.Data.List.Nodup
import Mathlib.Data.List.Perm.Basic
import Mathlib.Logic.Function.Basic

namespace OtelDatalake.Foundation

variable {Key Value : Type} [DecidableEq Key]

/-- The entry at `source`, if there is one, is moved to `target`. -/
def move (source target : Key) (entries : Key → Option Value) : Key → Option Value :=
  match entries source with
  | none => entries
  | some value => Function.update (Function.update entries source none) target (some value)

def moveAll (rules : List (Key × Key)) (entries : Key → Option Value) : Key → Option Value :=
  rules.foldl (fun entries rule => move rule.1 rule.2 entries) entries

/-- No entry is moved to a place from which another rule moves it on. -/
def Unchained (rules : List (Key × Key)) (entries : Key → Option Value) : Prop :=
  ∀ source target next, (source, target) ∈ rules → entries source ≠ none → target ≠ source →
    (target, next) ∈ rules → next = target

/-- Entries that are moved to the same place from elsewhere are equal. -/
def Unclashing (rules : List (Key × Key)) (entries : Key → Option Value) : Prop :=
  ∀ source other target first second, (source, target) ∈ rules → (other, target) ∈ rules → target ≠ source →
    target ≠ other → entries source = some first → entries other = some second → first = second

def OneRuleEach (rules : List (Key × Key)) : Prop := (rules.map Prod.fst).Nodup

section Move

variable {source target key : Key} {entries : Key → Option Value}

theorem move_apply (source target : Key) (entries : Key → Option Value) (key : Key) :
    move source target entries key =
      if entries source = none then entries key
      else if key = target then entries source
      else if key = source then none
      else entries key := by
  unfold move
  cases found : entries source with
  | none => simp
  | some value => simp [Function.update_apply]

theorem move_self (source : Key) (entries : Key → Option Value) : move source source entries = entries := by
  funext key
  rw [move_apply]
  split
  · rfl
  · split
    · rename_i same
      rw [same]
    · rfl

theorem move_other (source target : Key) (entries : Key → Option Value) (apart : key ≠ target)
    (kept : key ≠ source) : move source target entries key = entries key := by
  rw [move_apply, if_neg apart, if_neg kept, ite_self]

theorem move_present (source target : Key) (kept : key ≠ source) (present : entries key ≠ none) :
    move source target entries key ≠ none := by
  rw [move_apply]
  split
  · exact present
  · rename_i moved
    split
    · exact moved
    · exact present

end Move

section Rules

variable {rules others : List (Key × Key)} {entries : Key → Option Value} {source target other : Key}

theorem moveAll_append (first second : List (Key × Key)) (entries : Key → Option Value) :
    moveAll (first ++ second) entries = moveAll second (moveAll first entries) := List.foldl_append ..

omit [DecidableEq Key] in
theorem OneRuleEach.tail {rule : Key × Key} (distinct : OneRuleEach (rule :: rules)) :
    OneRuleEach rules ∧ ∀ next ∈ rules, next.1 ≠ rule.1 := by
  have parts := List.nodup_cons.mp distinct
  refine ⟨parts.2, fun next member same => parts.1 ?_⟩
  rw [← same]
  exact List.mem_map.mpr ⟨next, member, rfl⟩

omit [DecidableEq Key] in
theorem OneRuleEach.perm (distinct : OneRuleEach rules) (order : rules.Perm others) : OneRuleEach others :=
  (order.map Prod.fst).nodup distinct

omit [DecidableEq Key] in
theorem Unchained.subset (unchained : Unchained rules entries) (part : others ⊆ rules) : Unchained others entries :=
  fun source target next listed present apart onward =>
    unchained source target next (part listed) present apart (part onward)

omit [DecidableEq Key] in
theorem Unclashing.subset (unclashing : Unclashing rules entries) (part : others ⊆ rules) :
    Unclashing others entries :=
  fun source other target first second listed also => unclashing source other target first second (part listed) (part also)

theorem Unchained.source_kept {rule : Key × Key} (unchained : Unchained (rule :: rules) entries)
    (distinct : OneRuleEach (rule :: rules)) (listed : (source, target) ∈ rules) (apart : target ≠ source) :
    move rule.1 rule.2 entries source = entries source := by
  have elsewhere : source ≠ rule.1 := distinct.tail.2 _ listed
  by_cases hit : source = rule.2
  · have unmoved : entries rule.1 = none := by
      by_contra present
      have stays := unchained rule.1 rule.2 target List.mem_cons_self present (hit ▸ elsewhere)
        (List.mem_cons_of_mem _ (hit ▸ listed))
      exact apart (stays.trans hit.symm)
    rw [move_apply, if_pos unmoved]
  · exact move_other _ _ _ hit elsewhere

theorem Unchained.step {rule : Key × Key} (unchained : Unchained (rule :: rules) entries)
    (distinct : OneRuleEach (rule :: rules)) : Unchained rules (move rule.1 rule.2 entries) := by
  intro source target next listed present apart onward
  rw [unchained.source_kept distinct listed apart] at present
  exact unchained source target next (List.mem_cons_of_mem _ listed) present apart (List.mem_cons_of_mem _ onward)

theorem Unclashing.step {rule : Key × Key} (unclashing : Unclashing (rule :: rules) entries)
    (unchained : Unchained (rule :: rules) entries) (distinct : OneRuleEach (rule :: rules)) :
    Unclashing rules (move rule.1 rule.2 entries) := by
  intro source other target first second listed also apart apart' found found'
  rw [unchained.source_kept distinct listed apart] at found
  rw [unchained.source_kept distinct also apart'] at found'
  exact unclashing source other target first second (List.mem_cons_of_mem _ listed) (List.mem_cons_of_mem _ also)
    apart apart' found found'

theorem move_comm {first second : Key × Key} (unchained : Unchained [first, second] entries)
    (unclashing : Unclashing [first, second] entries) (distinct : first.1 ≠ second.1) :
    move second.1 second.2 (move first.1 first.2 entries) = move first.1 first.2 (move second.1 second.2 entries) := by
  obtain ⟨source, target⟩ := first
  obtain ⟨other, goal⟩ := second
  simp only at distinct ⊢
  by_cases idle : target = source
  · rw [idle, move_self, move_self]
  by_cases idle' : goal = other
  · rw [idle', move_self, move_self]
  have freeOther : entries source ≠ none → other ≠ target := by
    rintro present rfl
    exact idle' (unchained source other goal (by simp) present idle (by simp))
  have freeSource : entries other ≠ none → source ≠ goal := by
    rintro present rfl
    exact idle (unchained other source target (by simp) present idle' (by simp))
  have same : entries source ≠ none → entries other ≠ none → target = goal → entries source = entries other := by
    rintro present present' rfl
    obtain ⟨value, found⟩ := Option.ne_none_iff_exists'.mp present
    obtain ⟨value', found'⟩ := Option.ne_none_iff_exists'.mp present'
    rw [found, found', unclashing source other target value value' (by simp) (by simp) idle idle' found found']
  have keptOther : move source target entries other = entries other := by
    by_cases absent : entries source = none
    · rw [move_apply, if_pos absent]
    · exact move_other _ _ _ (freeOther absent) distinct.symm
  have keptSource : move other goal entries source = entries source := by
    by_cases absent : entries other = none
    · rw [move_apply, if_pos absent]
    · exact move_other _ _ _ (freeSource absent) distinct
  funext key
  rw [move_apply other goal, move_apply source target (move other goal entries), keptOther, keptSource, move_apply,
    move_apply]
  by_cases absent : entries source = none
  · simp [absent]
  by_cases absent' : entries other = none
  · simp [absent']
  have apart := freeOther absent
  have apart' := freeSource absent'
  simp only [absent, absent', if_false]
  by_cases atTarget : key = target
  · by_cases atGoal : key = goal
    · rw [if_pos atGoal, if_pos atTarget]
      exact (same absent absent' (atTarget.symm.trans atGoal)).symm
    · subst atTarget
      simp [atGoal, apart.symm]
  · by_cases atGoal : key = goal
    · subst atGoal
      simp [atTarget, apart'.symm]
    · simp only [atTarget, atGoal, if_false]
      split <;> split <;> rfl

theorem moveAll_perm (unchained : Unchained rules entries) (unclashing : Unclashing rules entries)
    (distinct : OneRuleEach rules) (order : rules.Perm others) : moveAll rules entries = moveAll others entries := by
  induction order generalizing entries with
  | nil => rfl
  | cons rule order ih => exact ih (unchained.step distinct) (unclashing.step unchained distinct) distinct.tail.1
  | swap first second rest =>
    have part : [second, first] ⊆ second :: first :: rest := by simp
    refine congrArg (moveAll rest) ?_
    exact move_comm (unchained.subset part) (unclashing.subset part) (distinct.tail.2 first List.mem_cons_self).symm
  | trans first second ih ih' =>
    have middle := ih unchained unclashing distinct
    exact middle.trans (ih' (unchained.subset first.symm.subset) (unclashing.subset first.symm.subset)
      (distinct.perm first))

theorem moveAll_present (unruled : ∀ rule ∈ rules, rule.1 ≠ source) (present : entries source ≠ none) :
    moveAll rules entries source ≠ none := by
  induction rules generalizing entries with
  | nil => exact present
  | cons rule rest ih =>
    have kept : source ≠ rule.1 := (unruled rule List.mem_cons_self).symm
    exact ih (fun next member => unruled next (List.mem_cons_of_mem _ member)) (move_present _ _ kept present)

theorem moveAll_source_kept (unchained : Unchained (rules ++ others) entries) (distinct : OneRuleEach (rules ++ others))
    (listed : (source, target) ∈ others) (apart : target ≠ source) : moveAll rules entries source = entries source := by
  induction rules generalizing entries with
  | nil => rfl
  | cons rule rest ih =>
    have later := ih (unchained.step distinct) distinct.tail.1
    exact later.trans (unchained.source_kept distinct (List.mem_append_right _ listed) apart)

omit [DecidableEq Key] in
theorem exists_last {first second : Key × Key} (listed : first ∈ rules) (also : second ∈ rules) (apart : first ≠ second) :
    ∃ rest, rules.Perm (rest ++ [first, second]) ∧ rules.Perm (rest ++ [second, first]) := by
  obtain ⟨before, after, rfl⟩ := List.append_of_mem listed
  have elsewhere : second ∈ before ++ after := by
    rcases List.mem_append.mp also with inBefore | inRest
    · exact List.mem_append_left _ inBefore
    · rcases List.mem_cons.mp inRest with same | inAfter
      · exact absurd same.symm apart
      · exact List.mem_append_right _ inAfter
  obtain ⟨front, back, split⟩ := List.append_of_mem elsewhere
  have order : (before ++ first :: after).Perm (first :: second :: (front ++ back)) :=
    List.perm_middle.trans (.cons _ (split ▸ List.perm_middle))
  have shifted : (front ++ back ++ [first, second]).Perm (first :: second :: (front ++ back)) :=
    List.perm_append_comm
  have swapped : (front ++ back ++ [second, first]).Perm (second :: first :: (front ++ back)) :=
    List.perm_append_comm
  exact ⟨front ++ back, order.trans shifted.symm, order.trans ((List.Perm.swap _ _ _).trans swapped.symm)⟩

omit [DecidableEq Key] in
theorem OneRuleEach.elsewhere (distinct : OneRuleEach (rules ++ others)) (listed : (source, target) ∈ others) :
    ∀ rule ∈ rules, rule.1 ≠ source := by
  intro rule member same
  have parts : (rules.map Prod.fst ++ others.map Prod.fst).Nodup := List.map_append (f := Prod.fst) ▸ distinct
  have apart := (List.nodup_append.mp parts).2.2
  exact apart rule.1 (List.mem_map.mpr ⟨rule, member, rfl⟩) source (List.mem_map.mpr ⟨_, listed, rfl⟩) same

/-- Rules with the same effect in every order are not chained: of two chained ones the first could empty the place that
    the second fills. -/
theorem unchained_of_orders (distinct : OneRuleEach rules)
    (same : ∀ left right, rules.Perm left → rules.Perm right → moveAll left entries = moveAll right entries) :
    Unchained rules entries := by
  intro source target next listed present apart onward
  by_contra moves
  have differ : (source, target) ≠ (target, next) := fun equal => apart (congrArg Prod.fst equal).symm
  obtain ⟨rest, order, order'⟩ := exists_last listed onward differ
  have left : moveAll rest entries source ≠ none :=
    moveAll_present ((distinct.perm order).elsewhere (show (source, target) ∈ _ by simp)) present
  have equal := congrFun (same _ _ order order') target
  rw [moveAll_append, moveAll_append] at equal
  have emptied : moveAll [(source, target), (target, next)] (moveAll rest entries) target = none := by
    have filled : move source target (moveAll rest entries) target ≠ none := by
      rw [move_apply, if_neg left, if_pos rfl]
      exact left
    show move target next (move source target (moveAll rest entries)) target = none
    rw [move_apply, if_neg filled, if_neg (fun stays => moves stays.symm), if_pos rfl]
  have filled : moveAll [(target, next), (source, target)] (moveAll rest entries) target ≠ none := by
    have kept : move target next (moveAll rest entries) source ≠ none := move_present _ _ apart.symm left
    show move source target (move target next (moveAll rest entries)) target ≠ none
    rw [move_apply, if_neg kept, if_pos rfl]
    exact kept
  exact filled (equal.symm.trans emptied)

theorem moveAll_two {first second : Key} (differ : first ≠ second) (apart : target ≠ second)
    (found : entries second ≠ none) : moveAll [(first, target), (second, target)] entries target = entries second := by
  have kept : move first target entries second = entries second := move_other _ _ _ apart.symm differ.symm
  show move second target (move first target entries) target = entries second
  rw [move_apply, kept, if_neg found, if_pos rfl]

theorem unclashing_of_orders (distinct : OneRuleEach rules)
    (same : ∀ left right, rules.Perm left → rules.Perm right → moveAll left entries = moveAll right entries) :
    Unclashing rules entries := by
  intro source other target first second listed also apart apart' found found'
  by_cases differ : source = other
  · rw [differ, found'] at found
    exact (Option.some.inj found).symm
  · have distinctRules : (source, target) ≠ (other, target) := fun equal => differ (congrArg Prod.fst equal)
    obtain ⟨rest, order, order'⟩ := exists_last listed also distinctRules
    have unchained := (unchained_of_orders distinct same).subset order.symm.subset
    have atSource : moveAll rest entries source = some first :=
      (moveAll_source_kept unchained (distinct.perm order) (by simp) apart).trans found
    have atOther : moveAll rest entries other = some second :=
      (moveAll_source_kept unchained (distinct.perm order) (by simp) apart').trans found'
    have equal := congrFun (same _ _ order order') target
    rw [moveAll_append, moveAll_append, moveAll_two differ apart' (by simp [atOther]),
      moveAll_two (Ne.symm differ) apart (by simp [atSource]), atSource, atOther] at equal
    exact (Option.some.inj equal).symm

/-- The order of the rules has no effect exactly if they are neither chained nor clashing on the entries. -/
theorem moveAll_orders_iff (distinct : OneRuleEach rules) :
    (∀ left right, rules.Perm left → rules.Perm right → moveAll left entries = moveAll right entries) ↔
      Unchained rules entries ∧ Unclashing rules entries := by
  refine ⟨fun same => ⟨unchained_of_orders distinct same, unclashing_of_orders distinct same⟩, ?_⟩
  rintro ⟨unchained, unclashing⟩ left right order order'
  exact (moveAll_perm unchained unclashing distinct order).symm.trans (moveAll_perm unchained unclashing distinct order')

end Rules

end OtelDatalake.Foundation
