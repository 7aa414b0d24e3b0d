import Mathlib.Data.Nat.Basic
import LoxLang.Store

/-!
# Enclosing links

A frame may be enclosed by another one, which is older. So whoever follows the links from a frame
comes to an end and passes no frame twice (`Links.trail_nodup`). The frames that are passed make up
the environment of the frame, and a frame stands in it as far out as there are links to it
(`Links.getElem?_trail`).
-/

namespace LoxLang

/-- By which frame a frame is enclosed, if there is one. -/
structure Links where
  enclosing? : Nat → Option Nat
  older : ∀ {frame outer : Nat}, enclosing? frame = some outer → outer < frame

namespace Links

variable {links : Links} {frame outer : Nat}

/-- No frame is enclosed. -/
def none : Links :=
  { enclosing? := fun _ => .none, older := nofun }

/-- Enclose one more frame in an older one. -/
def enclose (links : Links) (inner outer : Nat) (older : outer < inner) : Links where
  enclosing? frame := if frame = inner then some outer else links.enclosing? frame
  older := by
    intro frame found linked
    split at linked
    case isTrue same =>
      obtain rfl := Option.some.inj linked
      exact same ▸ older
    case isFalse => exact links.older linked

/-- The frames from one frame outwards. -/
def trail (links : Links) (frame : Nat) : Environment :=
  match _linked : links.enclosing? frame with
  | some outer => frame :: links.trail outer
  | .none => [frame]
termination_by frame
decreasing_by exact links.older _linked

theorem trail_of_some (linked : links.enclosing? frame = some outer) :
    links.trail frame = frame :: links.trail outer := by
  rw [trail]
  split
  case h_1 other found => rw [Option.some.inj (linked.symm.trans found)]
  case h_2 found => rw [linked] at found; cases found

theorem trail_of_none (outermost : links.enclosing? frame = .none) :
    links.trail frame = [frame] := by
  rw [trail]
  split
  case h_1 other found => rw [outermost] at found; cases found
  case h_2 => rfl

/-- The frame that a number of links lead to, if there are that many. -/
def ancestor? (links : Links) (frame : Nat) : Nat → Option Nat
  | 0 => some frame
  | distance + 1 => (links.enclosing? frame).bind fun outer => links.ancestor? outer distance

/-- In the trail of a frame, every other frame stands as many places behind it as there are links
between them. -/
theorem getElem?_trail (links : Links) (frame distance : Nat) :
    (links.trail frame)[distance]? = links.ancestor? frame distance := by
  induction distance generalizing frame with
  | zero =>
    cases linked : links.enclosing? frame with
    | some outer => rw [trail_of_some linked]; rfl
    | none => rw [trail_of_none linked]; rfl
  | succ distance inductionHypothesis =>
    cases linked : links.enclosing? frame with
    | some outer =>
      rw [trail_of_some linked, ancestor?, linked]
      exact inductionHypothesis outer
    | none =>
      rw [trail_of_none linked, ancestor?, linked]
      rfl

theorem length_trail_pos (links : Links) (frame : Nat) : 0 < (links.trail frame).length :=
  (List.getElem?_eq_some_iff.mp (links.getElem?_trail frame 0)).1

/-- The frames of a trail become older all the way out. -/
theorem trail_pairwise (links : Links) (frame : Nat) :
    (links.trail frame).Pairwise (· > ·) ∧ ∀ passed ∈ links.trail frame, passed ≤ frame := by
  induction frame using Nat.strongRecOn with
  | ind frame inductionHypothesis =>
    cases linked : links.enclosing? frame with
    | some outer =>
      have older := links.older linked
      obtain ⟨ordered, bounded⟩ := inductionHypothesis outer older
      rw [trail_of_some linked]
      refine ⟨.cons (fun passed member => ?_) ordered, ?_⟩
      · exact Nat.lt_of_le_of_lt (bounded passed member) older
      · rintro passed (_ | ⟨_, member⟩)
        · exact Nat.le_refl _
        · exact Nat.le_of_lt (Nat.lt_of_le_of_lt (bounded passed member) older)
    | none => simp [trail_of_none linked]

/-- No frame is passed twice. -/
theorem trail_nodup (links : Links) (frame : Nat) : (links.trail frame).Nodup :=
  (links.trail_pairwise frame).1.imp Nat.ne_of_gt

end Links

end LoxLang
