import Mathlib.Tactic

/-! # The button of the detail page

`ButtonAnimation` takes taps while its parent enables it and its own flag `animationComplete` is
down. The flag goes up when the bar has run, about three seconds after a tap, whatever has become of
the tap; only a new configuration by the parent lowers it.

* `accepts_update`, `accepts_tick`, `accepts_tapped`: what a rebuild of the parent, the end of an
  animation and a tap do to the readiness for a tap. -/

namespace PixsBliss.Pages.ButtonAnimation

/-! ### The state of the button -/

inductive AnimationStatus
  | dismissed
  | forward
  | reverse
  | completed
deriving DecidableEq

namespace AnimationStatus

/-- `forward()`: a controller that has completed stays there, and reports nothing again. -/
def start (a : AnimationStatus) : AnimationStatus := if a = completed then completed else forward

def isAnimating (a : AnimationStatus) : Bool := a = forward || a = reverse

end AnimationStatus

/-- What the parent builds the button from; the callback is of any type. -/
structure Config (α : Type) where
  key : Bool
  onDownload : α
  isComplete : Bool
  buttonText : String
  isEnabled : Bool
deriving DecidableEq

/-- The state, with its configuration and its three controllers. -/
structure Button (α : Type) where
  widget : Config α
  animationComplete : Bool
  animationController : AnimationStatus
  scaleAnimationController : AnimationStatus
  fadeAnimationController : AnimationStatus
deriving DecidableEq

/-- The animations whose ends are reported. -/
inductive Tick
  | scaleCompleted
  | scaleDismissed
  | fadeCompleted
  | animationCompleted
deriving DecidableEq

variable {α : Type}

/-- `initState`. -/
def create (c : Config α) : Button α := ⟨c, false, .dismissed, .dismissed, .dismissed⟩

def didUpdateWidget (c : Config α) (b : Button α) : Button α :=
  if c.isComplete && !b.animationComplete then { b with widget := c, animationComplete := true }
  else if !c.isComplete && b.animationComplete then
    { b with widget := c, animationComplete := false }
  else { b with widget := c }

/-- A new configuration; one with another key is for a new button. -/
def update (c : Config α) (b : Button α) : Button α :=
  if c.key = b.widget.key then didUpdateWidget c b else create c

/-- `onTap` of the ink well. -/
def onTap (b : Button α) : Option α :=
  if b.widget.isEnabled && !b.animationComplete then some b.widget.onDownload else none

/-- The animation a tap starts. -/
def tapped (b : Button α) : Button α :=
  { b with scaleAnimationController := b.scaleAnimationController.start }

/-- The end of an animation, if it runs. -/
def tick (b : Button α) : Tick → Button α
  | .scaleCompleted =>
    if b.scaleAnimationController = .forward then
      { b with
        scaleAnimationController := .reverse
        fadeAnimationController := b.fadeAnimationController.start
        animationController := b.animationController.start }
    else b
  | .scaleDismissed =>
    if b.scaleAnimationController = .reverse then { b with scaleAnimationController := .dismissed }
    else b
  | .fadeCompleted =>
    if b.fadeAnimationController = .forward then { b with fadeAnimationController := .completed }
    else b
  | .animationCompleted =>
    if b.animationController = .forward then
      { b with animationController := .completed, animationComplete := true }
    else b

def Finished (b : Button α) : Prop :=
  b.animationController.isAnimating = false ∧ b.scaleAnimationController.isAnimating = false ∧
    b.fadeAnimationController.isAnimating = false

instance (b : Button α) : Decidable (Finished b) := inferInstanceAs (Decidable (_ ∧ _ ∧ _))

/-! ### When it takes a tap -/

def Accepts (b : Button α) : Prop := onTap b ≠ none

def BarEnds (b : Button α) (t : Tick) : Prop :=
  t = .animationCompleted ∧ b.animationController = .forward

/-- A configuration that makes the button accept a tap. -/
def Offers (c : Config α) (b : Button α) : Prop :=
  c.isEnabled = true ∧ (c.isComplete = true → c.key ≠ b.widget.key)

variable {b : Button α} {c : Config α}

theorem accepts_iff : Accepts b ↔ b.widget.isEnabled = true ∧ b.animationComplete = false := by
  unfold Accepts onTap
  cases b.widget.isEnabled <;> cases b.animationComplete <;> simp

/-- The new configuration decides about the flag. -/
theorem didUpdateWidget_spec : (didUpdateWidget c b).widget = c ∧
    (didUpdateWidget c b).animationComplete = c.isComplete := by
  unfold didUpdateWidget
  cases c.isComplete <;> cases b.animationComplete <;> simp

theorem accepts_update : Accepts (update c b) ↔ Offers c b := by
  rw [accepts_iff]
  unfold Offers update
  by_cases hk : c.key = b.widget.key
  · obtain ⟨hw, hf⟩ := didUpdateWidget_spec (c := c) (b := b)
    rw [if_pos hk, hw, hf]
    simp [hk]
  · rw [if_neg hk]
    simp [create, hk]

/-- **The end of an animation**: that of the bar ends the readiness. -/
theorem accepts_tick (t : Tick) : Accepts (tick b t) ↔ Accepts b ∧ ¬BarEnds b t := by
  rw [accepts_iff, accepts_iff]
  unfold BarEnds
  cases t with
  | animationCompleted =>
    simp only [tick]
    split_ifs with hf
    · simp [hf]
    · simp [hf]
  | scaleCompleted =>
    simp only [tick]
    split_ifs <;> simp
  | scaleDismissed =>
    simp only [tick]
    split_ifs <;> simp
  | fadeCompleted =>
    simp only [tick]
    split_ifs <;> simp

theorem accepts_tapped : Accepts (tapped b) ↔ Accepts b := by
  rw [accepts_iff, accepts_iff]
  rfl

end PixsBliss.Pages.ButtonAnimation
