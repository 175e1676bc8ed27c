import IocDb.Fanout
import Mathlib.Algebra.Order.Floor.Div

/-!
# Groups of links

The links of a chain are divided among its records. All records but the last keep one field for the
next record.

* `flatten_groups`: the groups hold the links in order.
* **`length_groups`**: how many groups there are.
* `length_of_mem_dropLast_groups`, `length_getLast_groups_le`: how many links a group has.
* `mem_linked`: what the records of a chain are given.
-/

namespace IocDb

variable {α : Type}

theorem groups_ne_nil (room : Nat) (links : List α) : groups room links ≠ [] := by
  unfold groups
  split <;> simp

/-- No link is lost, and none is repeated. -/
theorem flatten_groups (room : Nat) (links : List α) : (groups room links).flatten = links := by
  fun_induction groups room links with
  | case1 links h ih => rw [List.flatten_cons, ih, List.take_append_drop]
  | case2 links h => simp

theorem mem_of_mem_groups {room : Nat} {links group : List α} (h : group ∈ groups room links) {a : α}
    (ha : a ∈ group) : a ∈ links := by
  rw [← flatten_groups room links]
  exact List.mem_flatten.mpr ⟨group, h, ha⟩

/-- **One group for every `room - 1` links behind the first**, and one in any case. -/
theorem length_groups {room : Nat} (hr : 1 < room) (links : List α) :
    (groups room links).length = max 1 ((links.length - 1) ⌈/⌉ (room - 1)) := by
  fun_induction groups room links with
  | case1 links h ih =>
    obtain ⟨k, rfl⟩ : ∃ k, room = k + 2 := ⟨room - 2, by omega⟩
    obtain ⟨n, hn⟩ : ∃ n, links.length = n + (k + 3) := ⟨links.length - (k + 3), by omega⟩
    have hk : k + 2 - 1 = k + 1 := rfl
    rw [List.length_cons, ih, List.length_drop, hn, hk, Nat.ceilDiv_eq_add_pred_div,
      Nat.ceilDiv_eq_add_pred_div]
    have h₁ : n + (k + 3) - (k + 1) - 1 + (k + 1) - 1 = n + (k + 1) := by omega
    have h₂ : n + (k + 3) - 1 + (k + 1) - 1 = n + (k + 1) + (k + 1) := by omega
    have hpos : 0 < k + 1 := k.succ_pos
    rw [h₁, h₂, Nat.add_div_right (n + (k + 1)) hpos, Nat.add_div_right n hpos]
    generalize n / (k + 1) = q
    omega
  | case2 links h =>
    obtain ⟨k, rfl⟩ : ∃ k, room = k + 2 := ⟨room - 2, by omega⟩
    have hk : k + 2 - 1 = k + 1 := rfl
    have hlt : (links.length - 1 + (k + 1) - 1) / (k + 1) < 2 := by
      rw [Nat.div_lt_iff_lt_mul k.succ_pos]
      omega
    rw [List.length_singleton, hk, Nat.ceilDiv_eq_add_pred_div]
    omega

theorem length_of_mem_dropLast_groups {room : Nat} {links group : List α}
    (h : group ∈ (groups room links).dropLast) : group.length + 1 = room := by
  fun_induction groups room links with
  | case1 links hl ih =>
    rw [List.dropLast_cons_of_ne_nil (groups_ne_nil _ _)] at h
    rcases List.mem_cons.mp h with rfl | h
    · rw [List.length_take]
      omega
    · exact ih h
  | case2 links hl => simp at h

theorem length_getLast_groups_le {room : Nat} (hr : 1 < room) {links group : List α}
    (h : (groups room links).getLast? = some group) : group.length ≤ room := by
  fun_induction groups room links with
  | case1 links hl ih =>
    rw [List.getLast?_cons_of_ne_nil (groups_ne_nil _ _)] at h
    exact ih h
  | case2 links hl =>
    obtain rfl : links = group := Option.some.inj h
    omega

/-! ## Links to the next record -/

/-- A record of a chain is given links of its own and the link to some record of the chain. -/
theorem mem_linked {kind : FanoutKind} {parts : List (List Value)} {handles : List Handle}
    {part : List Value} {v : Value} (h : part ∈ Build.linked kind parts handles) (hv : v ∈ part) :
    (∃ group ∈ parts, v ∈ group) ∨ ∃ handle ∈ handles, v = kind.next handle := by
  fun_induction Build.linked kind parts handles with
  | case1 group rest first next handles ih =>
    rcases List.mem_cons.mp h with rfl | h
    · rcases List.mem_append.mp hv with hv | hv
      · exact .inl ⟨group, List.mem_cons_self, hv⟩
      · exact .inr ⟨next, by simp, List.mem_singleton.mp hv⟩
    · rcases ih h with ⟨g, hg, hv⟩ | ⟨handle, hh, hv⟩
      · exact .inl ⟨g, List.mem_cons_of_mem _ hg, hv⟩
      · exact .inr ⟨handle, List.mem_cons_of_mem _ hh, hv⟩
  | case2 parts handles _ => exact .inl ⟨part, h, hv⟩

end IocDb
