import Mathlib.Data.Set.BooleanAlgebra
import Mathlib.Logic.Function.Basic
import Mathlib.Order.CompletePartialOrder

/-!
# Operations that stay within a footprint

A state is looked at by keys.  An operation is local to a set of keys, its footprint, when on every state that
agrees there it returns the same and does the same write, and this write neither depends on the other keys nor
changes them.  Two operations with disjoint footprints can be done in either order (`Local.commute`).
-/

namespace Footprints

variable {σ κ ν ρ ρ' : Type} (look : σ → κ → ν)

/-- The states are the same at these keys. -/
def Agree (F : Set κ) (s s' : σ) : Prop := ∀ k ∈ F, look s k = look s' k

/-- The write stays within `F`. -/
structure Writes (F : Set κ) (write : σ → σ) : Prop where
  inside : ∀ {s s' : σ}, Agree look F s s' → Agree look F (write s) (write s')
  outside : ∀ (s : σ) (k : κ), k ∉ F → look (write s) k = look s k

/-- Where the state agrees with `s` on `F`, the operation returns one thing and does one write within `F`. -/
def Local (F : Set κ) (op : σ → ρ × σ) (s : σ) : Prop :=
  ∃ result write, Writes look F write ∧ ∀ s', Agree look F s s' → op s' = (result, write s')

variable {look} {F G : Set κ} {s s' s'' : σ} {write write' : σ → σ}

theorem Agree.refl (s : σ) : Agree look F s s := fun _ _ => rfl

theorem Agree.symm (h : Agree look F s s') : Agree look F s' s := fun k hk => (h k hk).symm

theorem Writes.id : Writes look F id := ⟨fun h => h, fun _ _ _ => rfl⟩

theorem Writes.comp (h : Writes look F write) (h' : Writes look F write') : Writes look F (write' ∘ write) := by
  refine ⟨fun hagree => h'.inside (h.inside hagree), fun s k hk => ?_⟩
  calc look (write' (write s)) k = look (write s) k := h'.outside _ k hk
    _ = look s k := h.outside s k hk

/-- A write of one key. -/
theorem Writes.of_key {k : κ} (hk : k ∈ F) (hself : ∀ s s', look (write s) k = look (write s') k)
    (hother : ∀ s k', k' ≠ k → look (write s) k' = look s k') : Writes look F write := by
  refine ⟨fun {s s'} hagree k' hk' => ?_, fun s k' hk' => ?_⟩
  · by_cases hkey : k' = k
    · rw [hkey]
      exact hself s s'
    · rw [hother s k' hkey, hother s' k' hkey]
      exact hagree k' hk'
  · exact hother s k' fun hkey => hk' (hkey ▸ hk)

/-- What is written within `F` is not seen in `G`. -/
theorem Writes.agree_of_disjoint (h : Writes look F write) (hdisjoint : Disjoint F G) (s : σ) :
    Agree look G s (write s) := by
  intro k hk
  exact (h.outside s k fun hkF => Set.disjoint_left.mp hdisjoint hkF hk).symm

/-- Writes within disjoint sets commute. -/
theorem Writes.commute (hlook : Function.Injective look) (h : Writes look F write) (h' : Writes look G write')
    (hdisjoint : Disjoint F G) (s : σ) : write' (write s) = write (write' s) := by
  have hF : Agree look F (write s) (write (write' s)) :=
    h.inside (h'.agree_of_disjoint hdisjoint.symm s)
  have hG : Agree look G (write' s) (write' (write s)) :=
    h'.inside (h.agree_of_disjoint hdisjoint s)
  apply hlook
  funext k
  by_cases hkF : k ∈ F
  · have hkG : k ∉ G := Set.disjoint_left.mp hdisjoint hkF
    rw [h'.outside (write s) k hkG]
    exact hF k hkF
  · rw [h.outside (write' s) k hkF]
    by_cases hkG : k ∈ G
    · exact (hG k hkG).symm
    · rw [h'.outside (write s) k hkG, h'.outside s k hkG, h.outside s k hkF]

/-- What is returned may be looked at differently. -/
theorem Local.map {op : σ → ρ × σ} (h : Local look F op s) (f : ρ → ρ') :
    Local look F (fun s => (f (op s).1, (op s).2)) s := by
  obtain ⟨result, write, hwrite, hop⟩ := h
  refine ⟨f result, write, hwrite, fun s' hagree => ?_⟩
  show (f (op s').1, (op s').2) = _
  rw [hop s' hagree]

/-- An operation that only reads. -/
theorem Local.of_read {read : σ → ρ} (hread : ∀ s', Agree look F s s' → read s' = read s) :
    Local look F (fun s => (read s, s)) s :=
  ⟨read s, id, .id, fun s' hagree => congrArg (·, s') (hread s' hagree)⟩

/-- An operation that gives a reason and changes nothing, or none and does a write. -/
theorem Local.of_reason {op : σ → Option ρ × σ} (hwrite : Writes look F write)
    (hreason : ∀ s', Agree look F s s' → (op s').1 = (op s).1)
    (hstate : ∀ s', Agree look F s s' → (op s').2 = if (op s').1 = none then write s' else s') :
    Local look F op s := by
  cases hop : (op s).1 with
  | none =>
    refine ⟨none, write, hwrite, fun s' hagree => ?_⟩
    have hnone : (op s').1 = none := (hreason s' hagree).trans hop
    exact Prod.ext hnone ((hstate s' hagree).trans (if_pos hnone))
  | some reason =>
    refine ⟨some reason, id, .id, fun s' hagree => ?_⟩
    have hsome : (op s').1 = some reason := (hreason s' hagree).trans hop
    refine Prod.ext hsome ((hstate s' hagree).trans (if_neg ?_))
    rw [hsome]
    exact nofun

/-- **Operations with disjoint footprints** lead to the same state in either order, and each returns what it
returns alone. -/
theorem Local.commute (hlook : Function.Injective look) {op : σ → ρ × σ} {op' : σ → ρ' × σ} (h : Local look F op s)
    (h' : Local look G op' s) (hdisjoint : Disjoint F G) :
    (op' (op s).2).2 = (op (op' s).2).2 ∧ (op (op' s).2).1 = (op s).1 ∧ (op' (op s).2).1 = (op' s).1 := by
  obtain ⟨result, write, hwrite, hop⟩ := h
  obtain ⟨result', write', hwrite', hop'⟩ := h'
  have hfirst : op s = (result, write s) := hop s (.refl s)
  have hfirst' : op' s = (result', write' s) := hop' s (.refl s)
  have hsecond : op (write' s) = (result, write (write' s)) :=
    hop _ (hwrite'.agree_of_disjoint hdisjoint.symm s)
  have hsecond' : op' (write s) = (result', write' (write s)) :=
    hop' _ (hwrite.agree_of_disjoint hdisjoint s)
  rw [hfirst, hfirst', hsecond, hsecond']
  exact ⟨hwrite.commute hlook hwrite' hdisjoint s, rfl, rfl⟩

end Footprints
