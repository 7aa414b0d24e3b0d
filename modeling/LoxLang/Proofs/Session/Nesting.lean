import LoxLang.Proofs.Machine.Nesting
import LoxLang.Proofs.Session.Scopes
import Mathlib.Order.Defs.LinearOrder

/-!
# The call depth of a run

A run starts at depth zero, so at each of its moments the machine counts exactly the bodies that are
being executed, and a call is refused only for want of room for one more (`call_depth_counts`).
-/

namespace LoxLang

namespace Session

variable {session : Session} {source : String} {fuel : Nat} {bodies : List Closure} {task : Task}
  {machine : Machine}

/-- A task comes about while a session runs a text, inside the bodies of these functions. -/
def Executes (session : Session) (source : String) (fuel : Nat) (bodies : List Closure)
    (task : Task) (machine : Machine) : Prop :=
  Task.Nests bodies (.topLevel fuel (session.program source).statements) (session.loaded source)
    task machine

/-- The machine of a session counts from zero up to the limit of the session. -/
theorem Executes.depth (executes : session.Executes source fuel bodies task machine)
    (reachable : session.Reachable) :
    machine.callDepth = bodies.length ∧ machine.callLimit = session.machine.callLimit ∧
      machine.callDepth ≤ machine.callLimit := by
  have counts := executes.counts
  have idle : (session.loaded source).callDepth = 0 := reachable.atTopLevel.callDepth
  refine ⟨?_, counts.callLimit, counts.allowed ?_⟩
  · rw [counts.callDepth, idle, Nat.zero_add]
  · rw [idle]
    exact Nat.zero_le _

end Session

/-- At every moment of every run the call depth is the number of bodies of functions, methods and
initializers that are being executed, which the limit bounds. A call of a callable value with as
many arguments as it takes overflows by itself if and only if it would start a body where that many
are being executed; a call that starts none enters none and never overflows. -/
theorem call_depth_counts {session : Session} (reachable : session.Reachable) (source : String)
    (fuel : Nat) :
    (∀ task machine, session.Performs source fuel task machine →
      ∃ bodies, session.Executes source fuel bodies task machine) ∧
    (∀ bodies task machine, session.Executes source fuel bodies task machine →
      machine.callDepth = bodies.length ∧ bodies.length ≤ session.machine.callLimit ∧
      ∀ after, task.Leaves machine after → after.callDepth = bodies.length) ∧
    (∀ bodies given callee paren arguments machine,
      session.Executes source fuel bodies (.call given callee paren arguments) machine →
      (∀ more, OverflowsItself (more + 2) callee paren arguments machine ↔
        callee.startsBody = true ∧ bodies.length = session.machine.callLimit) ∧
      (callee.startsBody = false → ∀ more,
        (∀ inner last final,
          Task.Nests inner (.call more callee paren arguments) machine last final → inner = []) ∧
        ∀ error after, Eval.call more callee paren arguments machine = .fault error after →
          error.fault ≠ .stackOverflow)) := by
  refine ⟨?_, ?_, ?_⟩
  · intro task machine performs
    exact Task.Reaches.nests performs
  · intro bodies task machine executes
    obtain ⟨counted, limited, allowed⟩ := executes.depth reachable
    refine ⟨counted, by omega, fun after leaves => ?_⟩
    exact leaves.evolves.callDepth.trans counted
  · intro bodies given callee paren arguments machine executes
    obtain ⟨counted, limited, allowed⟩ := executes.depth reachable
    constructor
    · intro more
      rw [overflowsItself_iff allowed, counted, limited]
    · intro starts more
      obtain ⟨stuck, harmless⟩ := call_without_body starts more paren arguments machine
      refine ⟨fun inner last final nested => ?_, harmless⟩
      cases nested with
      | refl => rfl
      | step first _ => exact (stuck _ _ first).elim

/-- With a limit of one, the call inside the body that the first call started overflows by
itself. -/
theorem call_depth_counts_recursive :
    ∃ bodies given callee paren arguments machine,
      (Session.start (fun _ => 0) 1).Executes "fun f() \x7b f(); \x7d f();" 20 bodies
        (.call given callee paren arguments) machine ∧
      machine.callDepth = 1 ∧ OverflowsItself 2 callee paren arguments machine := by
  have statements : ((Session.start (fun _ => 0) 1).program
      "fun f() \x7b f(); \x7d f();").statements =
      [.function (.mk ⟨.identifier, "f", 1⟩ [] [.expression (.call
          (.reference 0 ⟨.identifier, "f", 1⟩) ⟨.symbol .rightParen, ")", 1⟩ [])]),
        .expression (.call (.reference 1 ⟨.identifier, "f", 1⟩)
          ⟨.symbol .rightParen, ")", 1⟩ [])] := by decide +kernel
  obtain ⟨given, callee, paren, arguments, machine, performs, counted, starts⟩ :
      ∃ given callee paren arguments machine,
        (Session.start (fun _ => 0) 1).Performs "fun f() \x7b f(); \x7d f();" 20
          (.call given callee paren arguments) machine ∧
        machine.callDepth = 1 ∧ callee.startsBody = true := by
    have distances : (resolve ((Session.start (fun _ => 0) 1).program
        "fun f() \x7b f(); \x7d f();").statements).distances = ∅ := by
      rw [statements]
      rfl
    unfold Session.Performs Session.loaded
    rw [distances, statements]
    refine ⟨?given, ?callee, ?paren, ?arguments, ?machine, ?performs, ?counted, ?starts⟩
    case performs =>
      refine .step (.nextStatements (by conv => lhs; cbv)) ?_
      refine .step .topStatement (.step .expression ?_)
      refine .step (.call (by conv => lhs; cbv) rfl rfl) (.step .function ?_)
      refine .step (.body rfl rfl rfl) (.step .firstStatement (.step .expression ?_))
      refine .step (.call (by conv => lhs; cbv) rfl rfl) ?_
      exact .refl
    case counted => rfl
    case starts => rfl
  obtain ⟨nested, depth, calls⟩ := call_depth_counts (.start (fun _ => 0) 1)
    "fun f() \x7b f(); \x7d f();" 20
  obtain ⟨bodies, executes⟩ := nested _ _ performs
  have single : bodies.length = 1 := (depth _ _ _ executes).1.symm.trans counted
  exact ⟨bodies, given, callee, paren, arguments, machine, executes, counted,
    ((calls _ _ _ _ _ _ executes).1 0).mpr ⟨starts, single⟩⟩

end LoxLang
