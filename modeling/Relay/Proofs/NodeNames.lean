import Mathlib.Data.List.Basic
import Relay.Chart.NodeId

/-!
# Names tell parts apart

The name of a part of a chart is made of pieces, one for the middleware and one
for every step below it, with a mark between them that no piece holds.  So the
pieces can be read off the name (`eq_of_flatMap_marked`), and different parts
of a chart have different names (`eq_of_text_eq`).  Only a file must stand
below a middleware: with no step at all its name would be that of the
middleware.
-/

namespace Relay.Chart

/-- A piece of the name of a part. -/
inductive Piece where
  | middleware (index : Nat)
  | main
  | step (position : Nat)
  | frame
  | call (position : Nat)

namespace Piece

/-- The characters of a piece. -/
def chars : Piece → List Char
  | middleware index => 'M' :: 'W' :: Nat.toDigits 10 (index + 1)
  | main => ['m', 'a', 'i', 'n']
  | step position => 'c' :: Nat.toDigits 10 position
  | frame => ['s', 'g']
  | call position => 'e' :: 'x' :: 't' :: Nat.toDigits 10 position

/-- A piece with the mark that stands in front of it. -/
def marked (p : Piece) : List Char :=
  '_' :: p.chars

/-- No piece has the mark that stands between pieces. -/
theorem mark_not_mem_chars (p : Piece) : '_' ∉ p.chars := by
  have hdigits : ∀ n : Nat, '_' ∉ Nat.toDigits 10 n := fun _ =>
    Nat.underscore_not_in_toDigits
  cases p <;> simp only [chars, List.mem_cons, hdigits] <;> decide

/-- Different pieces are written differently. -/
theorem eq_of_chars_eq {p q : Piece} (h : p.chars = q.chars) : p = q := by
  have hdigits : ∀ {m n : Nat}, Nat.toDigits 10 m = Nat.toDigits 10 n →
      m = n := by
    intro m n hmn
    have hread := congrArg (Nat.ofDigitChars 10 · 0) hmn
    rwa [Nat.ofDigitChars_toDigits (by decide) (by decide),
      Nat.ofDigitChars_toDigits (by decide) (by decide)] at hread
  cases p <;> cases q <;> simp only [chars, List.cons.injEq, true_and] at h
  case middleware.middleware i j =>
    have hij := hdigits h
    rw [Nat.succ.inj hij]
  case step.step i j => rw [hdigits h]
  case call.call i j => rw [hdigits h]
  all_goals first | rfl | exact absurd h.1 (by decide)

/-- A piece ends where the next mark stands. -/
theorem takeWhile_chars (p : Piece) (ps : List Piece) :
    (p.chars ++ ps.flatMap marked).takeWhile (· ≠ '_') = p.chars := by
  have hall : ∀ c ∈ p.chars, decide (c ≠ '_') = true := by
    intro c hc
    rw [decide_eq_true_eq]
    rintro rfl
    exact p.mark_not_mem_chars hc
  rw [List.takeWhile_append_of_pos hall]
  cases ps with
  | nil => simp
  | cons q qs => simp [marked]

/-- **Pieces can be read off.** -/
theorem eq_of_flatMap_marked {ps qs : List Piece}
    (h : ps.flatMap marked = qs.flatMap marked) : ps = qs := by
  induction ps generalizing qs with
  | nil =>
      cases qs with
      | nil => rfl
      | cons q qs => simp [marked] at h
  | cons p ps ih =>
      cases qs with
      | nil => simp [marked] at h
      | cons q qs =>
          rw [List.flatMap_cons, List.flatMap_cons, marked, marked,
            List.cons_append, List.cons_append, List.cons.injEq] at h
          have hfirst := congrArg (List.takeWhile (· ≠ '_')) h.2
          rw [takeWhile_chars, takeWhile_chars] at hfirst
          obtain rfl := eq_of_chars_eq hfirst
          rw [ih (List.append_cancel_left h.2)]

end Piece

namespace NodeId

/-- The pieces of the name of a part, the last one first. -/
def pieces : NodeId → List Piece
  | middleware index => [.middleware index]
  | main index => [.main, .middleware index]
  | component index steps => steps.map .step ++ [.middleware index]
  | frame index steps => .frame :: (steps.map .step ++ [.middleware index])
  | call owner position => .call position :: owner.pieces

/-- A part that a chart can have: a file stands below a middleware. -/
def Proper : NodeId → Prop
  | component _ steps | frame _ steps => steps ≠ []
  | call owner _ => owner.Proper
  | middleware _ | main _ => True

/-- The name of a file is made of its pieces, each after a mark. -/
theorem toList_componentText (index : Nat) (steps : List Nat) :
    '_' :: (componentText index steps).toList
      = (component index steps).pieces.reverse.flatMap Piece.marked := by
  have htext : ∀ t : String, toString t = t := fun _ => rfl
  induction steps with
  | nil => simp [componentText, pieces, Piece.marked, Piece.chars, htext]
  | cons step steps ih =>
      have hpieces : (component index (step :: steps)).pieces
          = .step step :: (component index steps).pieces := rfl
      rw [hpieces, List.reverse_cons, List.flatMap_append, ← ih]
      simp [componentText, Piece.marked, Piece.chars, htext]

/-- A name is made of its pieces, each with the mark in front but the first. -/
theorem toList_text (id : NodeId) :
    '_' :: id.text.toList = id.pieces.reverse.flatMap Piece.marked := by
  have htext : ∀ t : String, toString t = t := fun _ => rfl
  induction id with
  | middleware index => simp [text, pieces, Piece.marked, Piece.chars, htext]
  | main index => simp [text, pieces, Piece.marked, Piece.chars, htext]
  | component index steps => exact toList_componentText index steps
  | frame index steps =>
      have hpieces : (frame index steps).pieces
          = .frame :: (component index steps).pieces := rfl
      rw [hpieces, List.reverse_cons,
        List.flatMap_append, ← toList_componentText]
      simp [text, Piece.marked, Piece.chars, htext]
  | call owner position ih =>
      rw [pieces, List.reverse_cons, List.flatMap_append, ← ih]
      simp [text, Piece.marked, Piece.chars, htext]

/-- The steps and the middleware can be told from the pieces of a file. -/
theorem eq_of_map_step_eq {i j : Nat} {steps steps' : List Nat}
    (h : steps.map Piece.step ++ [.middleware i] = steps'.map .step ++
      [.middleware j]) :
    i = j ∧ steps = steps' := by
  obtain ⟨hsteps, hindex⟩ := List.append_inj' h rfl
  have hinjective : Function.Injective Piece.step :=
    fun _ _ heq => Piece.step.inj heq
  refine ⟨?_, List.map_injective_iff.mpr hinjective hsteps⟩
  simpa using hindex

/-- A file below a middleware has a step for its last piece, which no other
part has. -/
theorem pieces_ne_component {b : NodeId} (hb : ∀ j steps, b ≠ component j steps)
    {i : Nat} {steps : List Nat} (hsteps : steps ≠ []) :
    b.pieces ≠ (component i steps).pieces := by
  obtain ⟨step, rest, rfl⟩ := List.exists_cons_of_ne_nil hsteps
  cases b with
  | component j steps => exact absurd rfl (hb j steps)
  | _ => simp [pieces]

/-- Different parts have different pieces. -/
theorem eq_of_pieces_eq {a b : NodeId} (ha : a.Proper) (hb : b.Proper)
    (h : a.pieces = b.pieces) : a = b := by
  induction a generalizing b with
  | middleware i =>
      cases b with
      | component j steps => exact absurd h (pieces_ne_component (by simp) hb)
      | _ => simp_all [pieces]
  | main i =>
      cases b with
      | component j steps => exact absurd h (pieces_ne_component (by simp) hb)
      | _ => simp_all [pieces]
  | component i steps =>
      cases b with
      | component j steps' =>
          obtain ⟨rfl, rfl⟩ := eq_of_map_step_eq h
          rfl
      | _ => exact absurd h.symm (pieces_ne_component (by simp) ha)
  | frame i steps =>
      cases b with
      | frame j steps' =>
          obtain ⟨rfl, rfl⟩ := eq_of_map_step_eq (List.cons.inj h).2
          rfl
      | component j steps' => exact absurd h (pieces_ne_component (by simp) hb)
      | _ => simp_all [pieces]
  | call owner k ih =>
      cases b with
      | call owner' k' =>
          obtain ⟨hcall, howner⟩ := List.cons.inj h
          rw [Piece.call.inj hcall, ih ha (b := owner') hb howner]
      | component j steps' => exact absurd h (pieces_ne_component (by simp) hb)
      | _ => simp_all [pieces]

/-- **Names tell parts apart.** -/
theorem eq_of_text_eq {a b : NodeId} (ha : a.Proper) (hb : b.Proper)
    (h : a.text = b.text) : a = b := by
  have hmarked := congrArg (fun t : String => '_' :: t.toList) h
  rw [toList_text, toList_text] at hmarked
  exact eq_of_pieces_eq ha hb
    (List.reverse_injective (Piece.eq_of_flatMap_marked hmarked))

end NodeId

end Relay.Chart
