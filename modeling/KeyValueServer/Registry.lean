/-!
# Registries

What the server keeps for each open descriptor stands in a registry: a list of pairs with at
most one pair for a descriptor. A descriptor is a number that the operating system hands out
and may hand out again after it is closed.

## Main definitions

* `Registry` — the pairs in the order of their first registration;
* `Registry.get?`, `Registry.put`, `Registry.erase` — the operations;
* `Registry.get?_put`, `Registry.get?_erase` — what they do, seen through `get?`.
-/

namespace KeyValueServer

/-- The number of an open file or socket. -/
abbrev Descriptor := Nat

/-- What is kept for each descriptor. -/
abbrev Registry (α : Type) := List (Descriptor × α)

namespace Registry

variable {α : Type}

/-- What is kept for a descriptor. -/
def get? (fd : Descriptor) : Registry α → Option α
  | [] => none
  | (fd', a) :: rest => if fd' = fd then some a else get? fd rest

/-- The registry with something kept for a descriptor, in place of what was. -/
def put (fd : Descriptor) (a : α) : Registry α → Registry α
  | [] => [(fd, a)]
  | (fd', a') :: rest => if fd' = fd then (fd, a) :: rest else (fd', a') :: put fd a rest

/-- The registry with nothing kept for a descriptor. -/
def erase (fd : Descriptor) (r : Registry α) : Registry α :=
  r.filter fun (fd', _) => fd' ≠ fd

/-- The descriptors for which something is kept. -/
def descriptors (r : Registry α) : List Descriptor :=
  r.map (·.1)

/-- **Putting changes what is kept for one descriptor.** -/
theorem get?_put (fd fd' : Descriptor) (a : α) (r : Registry α) :
    (r.put fd a).get? fd' = if fd' = fd then some a else r.get? fd' := by
  induction r with
  | nil => simp [put, get?, eq_comm]
  | cons pair rest ih =>
    obtain ⟨fd'', a'⟩ := pair
    by_cases h : fd'' = fd
    · subst h
      by_cases h' : fd' = fd''
      · subst h'
        simp [put, get?]
      · simp [put, get?, h', Ne.symm h']
    · simp only [put, h, if_false, get?]
      split
      · rename_i h'
        subst h'
        simp [h]
      · exact ih

/-- What has been put is kept. -/
@[simp] theorem get?_put_self (fd : Descriptor) (a : α) (r : Registry α) :
    (r.put fd a).get? fd = some a := by
  rw [get?_put, if_pos rfl]

/-- Putting leaves what is kept for other descriptors. -/
theorem get?_put_of_ne {fd fd' : Descriptor} (h : fd' ≠ fd) (r : Registry α) (a : α) :
    (r.put fd a).get? fd' = r.get? fd' := by
  rw [get?_put, if_neg h]

/-- **Erasing removes what is kept for one descriptor.** -/
theorem get?_erase (fd fd' : Descriptor) (r : Registry α) :
    (r.erase fd).get? fd' = if fd' = fd then none else r.get? fd' := by
  induction r with
  | nil => simp [erase, get?]
  | cons pair rest ih =>
    obtain ⟨fd'', a⟩ := pair
    simp only [erase] at ih ⊢
    by_cases h : fd'' = fd
    · subst h
      simp only [ne_eq, not_true, decide_false, Bool.false_eq_true, not_false_eq_true,
        List.filter_cons_of_neg, ih, get?]
      split
      · rfl
      · rename_i h'
        simp [Ne.symm h']
    · simp only [ne_eq, h, not_false_eq_true, decide_true, List.filter_cons_of_pos, get?, ih]
      split
      · rename_i h'
        subst h'
        simp [h]
      · rfl

/-- What has been erased is not kept. -/
@[simp] theorem get?_erase_self (fd : Descriptor) (r : Registry α) :
    (r.erase fd).get? fd = none := by
  rw [get?_erase, if_pos rfl]

/-- Erasing leaves what is kept for other descriptors. -/
theorem get?_erase_of_ne {fd fd' : Descriptor} (h : fd' ≠ fd) (r : Registry α) :
    (r.erase fd).get? fd' = r.get? fd' := by
  rw [get?_erase, if_neg h]

end Registry

end KeyValueServer
