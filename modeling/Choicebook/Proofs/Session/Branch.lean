import Mathlib
import Choicebook.Proofs.Session.Rehearsal
import Choicebook.Proofs.Session.Runs
import Choicebook.Proofs.Session.Uniform

/-!
# What the commands of a branch see

The script of a condition can write variables of the running macro before it says yes or no. The
frame is copied to the shared variables only at the end of a command, and a condition is no command.
So where the first command of the branch takes the shared variables over, it finds there what was
shared before the condition, and not what the script has written (`Running.first_view`). It is
different from the second command on: by then the frame has been shared (`Running.later_view`).

The rehearsal at the end is a macro whose condition sets a variable, and whose branch then asks for
that variable and does not find the new value.
-/

namespace Choicebook

variable {σ : Type}

/-! ### Maps without repeated keys -/

/-- Both maps of variables are finite maps. -/
structure Session.Neat (s : Session σ) : Prop where
  frame : s.frame.Distinct
  shared : s.shared.Distinct

/-- An act that leaves both maps finite maps. -/
def Act.Neat {α : Type} (a : Act σ α) : Prop :=
  ∀ s : Session σ, s.Neat → (a.runOn s).2.Neat

namespace Act

variable {α β : Type} {host : Host σ}

theorem Neat.bind {a : Act σ α} {f : α → Act σ β} (ha : Neat a) (hf : ∀ x, Neat (f x)) :
    Neat (a >>= f) :=
  fun s hs => runOn_bind_keeps (ha s hs) hf

theorem Neat.inFrame {a : Act σ α} (ha : Neat a) (vars : Entries) :
    Neat (Act.inFrame vars a) := by
  intro s hs
  have hrun := ha { s with frame := Entries.update [] vars }
    ⟨Entries.distinct_nil.update vars, hs.shared⟩
  rw [runOn_inFrame_snd]
  exact ⟨hs.frame, hrun.shared⟩

theorem Neat.deeper {a : Act σ α} (ha : Neat a) (c : Choice) : Neat (Act.deeper c a) := by
  intro s hs
  obtain ⟨hframe, hshared⟩ := ha (s.enter c) ⟨hs.frame, hs.shared⟩
  exact ⟨hframe, hshared⟩

/-- Everything that a session does leaves the maps finite maps. -/
theorem neat_uniform (hn : host.Neat) : Uniform host fun {α} (a _ : Act σ α) => Neat a where
  pure _ := fun _ hs => hs
  bind := Neat.bind
  look _ h := fun s => h s s
  throw _ := fun _ hs => hs
  settle h := h
  inFrame vars _ _ h := h.inFrame vars
  edit hg := by
    intro s hs
    cases hg with
    | frame hf => exact ⟨hf _ hs.frame, hs.shared⟩
    | shared hf => exact ⟨hs.frame, hf _ _ hs.shared⟩
    | renew vars => exact ⟨hs.frame, Entries.distinct_nil.update vars⟩
    | _ => exact ⟨hs.frame, hs.shared⟩
  remember _ := fun _ hs => ⟨hs.frame, hs.shared⟩
  offers h := fun s hs => ⟨hn.frame h s hs.frame, hn.shared h s hs.shared⟩

end Act

theorem Choice.execute_neat {host : Host σ} (hn : host.Neat) (p : Placed) :
    (execute host p).Neat :=
  (Act.neat_uniform hn).execute (fun _ _ hs => ⟨hs.frame, hs.shared⟩) (fun c _ h => h.deeper c) p

/-! ### Views -/

/-- The variables that a command goes by when it begins. A conditional takes the shared variables
over before it looks at its condition, and a choice that is run has a frame that is made from them;
anything else works in the frame as it is. -/
def Command.view (c : Command) (target : Option Placed) (s : Session σ) : Entries :=
  match c, target with
  | .conditional .., _ => s.frame.update s.shared
  | _, some _ => Entries.update [] s.shared
  | _, none => s.frame

namespace Running

variable {host : Host σ} {s t u : Session σ} {k v : Value}

/-- The frame has been shared after commands, if there are any. -/
theorem shared_of_runCommands {r : Running σ} {cs : List Command} (hcs : cs ≠ [])
    {output out : Option Value} (h : (r.runCommands cs output).runOn t = (.ok out, u)) :
    ∃ shared : Entries, u.shared = shared.update u.frame := by
  induction cs generalizing t output with
  | nil => exact absurd rfl hcs
  | cons c cs ih =>
    obtain ⟨new, w, -, hrest⟩ := exists_of_runOn_runCommands h
    cases cs with
    | nil =>
      rw [runCommands] at hrest
      cases hrest
      exact ⟨w.shared, rfl⟩
    | cons c' cs => exact ih (List.cons_ne_nil _ _) hrest

/-- What a command sees that takes over the shared variables: these, and those of the frame where
there is none that is shared. -/
theorem get?_view (hs : s.Neat) (hk : k.canBeKey = true) (c : Command) (target : Option Placed) :
    (c.view target s).get? k = match c, target with
      | .conditional .., _ => (s.shared.get? k).or (s.frame.get? k)
      | _, some _ => s.shared.get? k
      | _, none => s.frame.get? k := by
  rw [Command.view.eq_def]
  split
  · exact Entries.get?_update _ hs.shared hk
  · rw [Entries.get?_update _ hs.shared hk, Entries.get?_nil, Option.or_none]
  · rfl

end Running

/-! ### Branches -/

namespace Rehearsal

/-- A macro whose condition sets `x`. If its branch, which begins with another conditional, sees
that, the host is asked for `saw`, and else for `missed`. -/
def deciding : Placed :=
  let head (name : String) : CommandHead := ⟨.text name, .text name⟩
  let look : Command := .conditional (head "look")
    (.onVariable ⟨"x", .known .equals, .text, some "new"⟩) [.host (head "saw") "saw"]
    [.host (head "missed") "missed"]
  let decide : Command := .conditional (head "decide") (.byScript "decide" .null) [look] []
  ⟨.ofMacro ⟨.text "deciding", .text "deciding", false⟩
    (some (.mk (.text "deciding") (.text "deciding") [decide] false)), none⟩

/-- A session that has just begun, with the script of that condition. -/
def undecided : Session Rehearsal :=
  let decide : Value := .function "decide" .one
    [.assign "x" (.literal (.text "new")), .finish (.literal (.bool true))]
  .start .preset .empty .start ⟨[("decide", decide)], [], [], [], false, none, false⟩

end Rehearsal

namespace Running

variable {host : Host σ} {t u : Session σ} {k v : Value}

/-- **What a condition has written is seen by every command of the branch but the first.** Of the
commands of a branch, let some be run from the state that the condition leaves, and let a variable
have a value in the frame then. Unless none has been run yet, the variable is shared with that
value, and whatever comes next sees it. The first command sees it if it works in the frame; if it is
a conditional, a value that was shared before comes first; if it runs another choice, only what was
shared before counts. -/
theorem branch_view (hn : host.Neat) (name : Value) (ht : t.Neat) {pre : List Command}
    {output out : Option Value}
    (hrun : (runCommands ⟨host, Choice.execute host, name⟩ pre output).runOn t = (.ok out, u))
    (hk : k.canBeKey = true) (hv : u.frame.get? k = some v) :
    (pre ≠ [] → u.shared.get? k = some v ∧
      ∀ c target, (Command.view c target u).get? k = some v) ∧
    (pre = [] → ∀ c target, (Command.view c target u).get? k = match c, target with
      | .conditional .., _ => (u.shared.get? k).or (some v)
      | _, some _ => u.shared.get? k
      | _, none => some v) := by
  have hu : u.Neat := by
    have d : Comparison host (Choice.execute host) (Choice.execute host)
        fun {α} (a _ : Act σ α) => a.Neat :=
      (Act.neat_uniform hn).comparison (Choice.execute_neat hn)
    have hneat := d.runCommands name pre output t ht
    rwa [hrun] at hneat
  constructor
  · intro hpre
    obtain ⟨shared, hshared⟩ := shared_of_runCommands hpre hrun
    have hpushed : u.shared.get? k = some v := by
      rw [hshared, Entries.get?_update _ hu.frame hk, hv, Option.some_or]
    refine ⟨hpushed, fun c target => ?_⟩
    rw [get?_view hu hk, hpushed, hv]
    split <;> rfl
  · intro _ c target
    rw [get?_view hu hk, hv]

/-- A variable that the script of a condition has changed, after one command of the branch. -/
theorem branch_view_undecided :
    let t := { Rehearsal.undecided with
      frame := [(.text "x", .text "new")], shared := [(.text "x", .text "old")] }
    let u := ((runCommands ⟨Rehearsal.host, Choice.execute Rehearsal.host, .text "deciding"⟩
      [.host ⟨.text "next", .text "next"⟩ "next"] none).runOn t).2
    t.Neat ∧ u.shared.get? (.text "x") = some (.text "new") ∧
      ∀ c target, (Command.view c target u).get? (.text "x") = some (.text "new") := by
  intro t u
  have ht : t.Neat := ⟨List.pairwise_singleton _ _, List.pairwise_singleton _ _⟩
  have hrun : (runCommands ⟨Rehearsal.host, Choice.execute Rehearsal.host, .text "deciding"⟩
      [.host ⟨.text "next", .text "next"⟩ "next"] none).runOn t = (.ok none, u) := rfl
  have hv : u.frame.get? (.text "x") = some (.text "new") := by cbv
  exact ⟨ht, (branch_view Rehearsal.host_neat _ ht hrun rfl hv).1 (List.cons_ne_nil _ _)⟩

end Running

/-- Where `x` was shared before, the branch does not see what the condition has set, and the value
of before is what is shared in the end. -/
theorem Runner.run_deciding :
    let run := (Runner.run Rehearsal.host (some Rehearsal.deciding)
      [(.text "x", .text "old")]).runOn Rehearsal.undecided
    run.2.events = #[.load "decide", .command "missed"] ∧
    run.2.shared = [(.text "x", .text "old")] := by
  constructor
  · cbv
  · cbv

end Choicebook
