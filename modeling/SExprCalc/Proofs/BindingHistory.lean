import Mathlib.Data.Finset.Card
import Mathlib.Data.List.Induction
import SExprCalc.Scope.Step

/-!
# Bindings remember the last write of every name

What bindings answer can be told from the steps that have been applied to them, without any
bindings: which names have been written, in which order and how often (`written`), and which values
a name has been given (`given`). A step writes only if it binds a name that is text.

Bindings keep each name once, with its latest value, at the place of its first write. The invariant
(`Follows`) says this in words of the history. Writing a name again moves it in neither sense: the
first place at which it was written is still the same, and so is its place among the names. A new
name has been written first at the very end, and comes last among the names (`Follows.write`).
-/

namespace SExprCalc.Bindings

/-! ### What a history tells -/

/-- The name that a step writes, with the value that it is given. -/
def Step.write? : Step → Option (String × Value)
  | .insert (.text n) value => some (n, value)
  | _ => none

/-- What has been written, in order. -/
def writes (steps : List Step) : List (String × Value) := steps.filterMap Step.write?

/-- The names that have been written, each as often as it was. -/
def written (steps : List Step) : List String := (writes steps).map Prod.fst

/-- The values that a name has been given, the latest last. Only text is ever given one. -/
def given (steps : List Step) (name : Name) : List Value :=
  (writes steps).filterMap fun (n, value) => if name = .text n then some value else none

variable {steps : List Step} {b : Bindings} {s : Step}

theorem writes_concat (steps : List Step) (s : Step) :
    writes (steps ++ [s]) = writes steps ++ s.write?.toList := by
  cases h : s.write? <;> simp [writes, h]

/-- A name that is text has been given a value exactly if it has been written. -/
theorem given_ne_nil_iff {name : Name} :
    given steps name ≠ [] ↔ ∃ n ∈ written steps, name = .text n := by
  simp [given, written, List.filterMap_eq_nil_iff]

/-! ### One step -/

/-- A step writes what it has to write, and does nothing else. -/
theorem apply_snd (b : Bindings) (s : Step) :
    (b.apply s).2 = match s.write? with
      | some (name, value) => b.set name value
      | none => b := by
  cases s with
  | insert name value => cases name <;> rfl
  | _ => rfl

/-- Bindings hold what their history tells. -/
structure Follows (steps : List Step) (b : Bindings) : Prop where
  /-- the names are those that have been written -/
  mem_names : ∀ n, n ∈ b.names ↔ n ∈ written steps
  /-- they stand in the order in which each was written first -/
  order : b.names.Pairwise fun m n => (written steps).idxOf m < (written steps).idxOf n
  /-- the value of a name is the last that it was given -/
  find? : ∀ name, b.find? name = (given steps name).getLast?

theorem follows_nil : Follows [] {} where
  mem_names _ := Iff.rfl
  order := .nil
  find? name := by cases name <;> rfl

/-- Writing a name keeps the order of first writes: a name that is already there stays in its place,
and a new one comes behind all others. -/
theorem Follows.order_write (h : Follows steps b) (name : String) (value : Value) :
    (b.set name value).names.Pairwise fun m n =>
      (written steps ++ [name]).idxOf m < (written steps ++ [name]).idxOf n := by
  -- the names so far keep the places at which they were written first
  have hkept : b.names.Pairwise fun m n =>
      (written steps ++ [name]).idxOf m < (written steps ++ [name]).idxOf n := by
    refine h.order.imp_of_mem fun {m n} hm hn hlt => ?_
    rwa [List.idxOf_append_of_mem ((h.mem_names m).mp hm),
      List.idxOf_append_of_mem ((h.mem_names n).mp hn)]
  by_cases hname : name ∈ b.names
  · rwa [names_set_of_mem hname]
  · rw [names_set_of_not_mem hname]
    refine List.pairwise_append.mpr ⟨hkept, List.pairwise_singleton _ _, fun m hm n hn => ?_⟩
    obtain rfl := List.mem_singleton.mp hn
    have hm := (h.mem_names m).mp hm
    have hnew : n ∉ written steps := fun hn => hname ((h.mem_names n).mpr hn)
    rw [List.idxOf_append_of_mem hm, List.idxOf_append_of_notMem hnew]
    exact Nat.lt_add_right _ (List.idxOf_lt_length_of_mem hm)

/-- A write is one write more of the history. -/
theorem Follows.write {name : String} {value : Value} (h : Follows steps b)
    (hs : s.write? = some (name, value)) : Follows (steps ++ [s]) (b.set name value) := by
  have hwrites : writes (steps ++ [s]) = writes steps ++ [(name, value)] := by
    simp [writes_concat, hs]
  have hwritten : written (steps ++ [s]) = written steps ++ [name] := by
    simp [written, hwrites]
  refine ⟨fun n => ?_, hwritten ▸ h.order_write name value, fun other => ?_⟩
  · rw [hwritten, mem_names_set, h.mem_names, List.mem_append, List.mem_singleton]
  · by_cases hother : other = .text name
    · subst hother
      simp [given, hwrites, Bindings.find?]
    · rw [find?_set_ne b hother, h.find?]
      simp [given, hwrites, hother]

/-- Any step is one step more of the history. -/
theorem Follows.step (h : Follows steps b) (s : Step) : Follows (steps ++ [s]) (b.apply s).2 := by
  rw [apply_snd]
  rcases hs : s.write? with _ | ⟨name, value⟩
  · have hwrites : writes (steps ++ [s]) = writes steps := by simp [writes_concat, hs]
    have hwritten : written (steps ++ [s]) = written steps := by rw [written, hwrites, written]
    have hgiven (name : Name) : given (steps ++ [s]) name = given steps name := by
      rw [given, hwrites, given]
    exact ⟨hwritten ▸ h.mem_names, hwritten ▸ h.order, fun name => hgiven name ▸ h.find? name⟩
  · exact h.write hs

/-! ### Any number of steps -/

theorem follows_stateAfter (steps : List Step) : Follows steps (stateAfter apply {} steps) := by
  induction steps using List.reverseRecOn with
  | nil => exact follows_nil
  | append_singleton steps s ih =>
    rw [stateAfter_concat]
    exact ih.step s

/-- No name is there twice, because no place of first writing comes before itself. -/
theorem Follows.nodup_names (h : Follows steps b) : b.names.Nodup :=
  h.order.imp fun hlt => by
    rintro rfl
    exact Nat.lt_irrefl _ hlt

/-- There are as many bindings as different names have been written. -/
theorem Follows.size_eq (h : Follows steps b) : b.size = (written steps).toFinset.card := by
  have hset : b.names.toFinset = (written steps).toFinset := by
    ext n
    simp [h.mem_names]
  rw [← hset, List.toFinset_card_of_nodup h.nodup_names, names, List.length_map, size]

/-- A name is bound exactly if it is text and among the names. -/
theorem Follows.contains_iff (h : Follows steps b) (name : Name) :
    b.contains name = true ↔ ∃ n ∈ b.names, name = .text n := by
  simp only [contains, h.find?, List.getLast?_isSome, given_ne_nil_iff, h.mem_names]

/-- **The last write of a name wins, and its first write gives it its place.** After any steps, of
which some bind names and others only ask, from empty bindings:

* the names are those that have been written, without repetition, in the order in which each was
  written first, and their number is the number of different names written;
* exactly these are contained;
* a name that has been given a value has the last one given to it, and any other has none;
* a name that is text can be bound, and one that is not is refused by an internal fault, which
  leaves the bindings as they are. Questions leave them as they are, too. -/
theorem answers_of_history (steps : List Step) :
    let b := stateAfter apply {} steps
    ∃ names : List String,
      (∀ n, n ∈ names ↔ n ∈ written steps) ∧ names.Nodup ∧
      names.Pairwise (fun m n => (written steps).idxOf m < (written steps).idxOf n) ∧
      b.apply .names = (.ok (.names names), b) ∧
      b.size = names.length ∧ b.size = (written steps).toFinset.card ∧
      ∀ name,
        b.apply (.contains name) = (.ok (.flag (decide (∃ n ∈ names, name = .text n))), b) ∧
        b.apply (.lookup name) =
          (.ok (.value ((given steps name).getLast?.getD (.foreign .absent))), b) ∧
        ∀ value, match name with
          | .text _ => (b.apply (.insert name value)).1 = .ok .done
          | _ => b.apply (.insert name value) = (.error (.badKey name), b) ∧
              (Fault.badKey name).family = .internal := by
  intro b
  have h : Follows steps b := follows_stateAfter steps
  refine ⟨b.names, h.mem_names, h.nodup_names, h.order, rfl, (List.length_map _).symm, h.size_eq,
    fun name => ⟨?_, ?_, fun value => ?_⟩⟩
  · have hcontains : b.contains name = decide (∃ n ∈ b.names, name = .text n) := by
      rw [Bool.eq_iff_iff, decide_eq_true_iff, h.contains_iff]
    rw [apply, hcontains]
  · rw [apply, Answer.ofValue?, h.find?]
  · cases name with
    | text n => rfl
    | _ => exact ⟨rfl, rfl⟩

/-- A name that is written again keeps its place, with its new value. -/
example : (stateAfter apply {} [.insert (.text "x") .nil, .insert (.integer 42) .nil,
    .insert (.text "y") (.boolean false), .insert (.text "x") (.boolean true)]).entries =
    [("x", .boolean true), ("y", .boolean false)] := by
  decide +kernel

end SExprCalc.Bindings
