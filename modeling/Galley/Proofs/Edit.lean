/-
`Proofs/Edit.lean` -- reading an edit off.

An edit can fail, and `Edit.on` answers an outcome *and* a document in either case. The
laws here say what `on` is for each way an edit is put together, so that an edit is
computed by rewriting, one step of it after the other. A loop is a fold over the
document when none of its steps can fail, which is the only kind of loop there is.
-/
import Galley.Document.Basic

set_option autoImplicit false

namespace Galley

/-! ## Partitions -/

namespace Buffer

@[simp] theorem fragments_replace (b : Buffer) (p : Partition) (l : List Fragment) :
    (b.replace p l).fragments p = l := by
  cases p <;> rfl

@[simp] theorem replace_replace (b : Buffer) (p : Partition) (l l' : List Fragment) :
    (b.replace p l).replace p l' = b.replace p l' := by
  cases p <;> rfl

@[simp] theorem replace_fragments (b : Buffer) (p : Partition) :
    b.replace p (b.fragments p) = b := by
  cases p <;> rfl

end Buffer

namespace Edit

variable {α β ι : Type}

/-! ## Laws of `on` -/

@[simp] theorem on_pure (a : α) (d : Document) : Edit.on (pure a) d = (.ok a, d) := rfl

@[simp] theorem on_get (d : Document) : Edit.on get d = (.ok d, d) := rfl

@[simp] theorem on_set (d d' : Document) : Edit.on (set d') d = (.ok (), d') := rfl

@[simp] theorem on_modify (f : Document → Document) (d : Document) :
    Edit.on (modify f) d = (.ok (), f d) := rfl

@[simp] theorem on_append (p : Partition) (fragment : Fragment) (d : Document) :
    (append p fragment).on d = (.ok (), { d with buffer := d.buffer.append p fragment }) := rfl

@[simp] theorem on_ofResult (r : Except DocumentError α) (d : Document) :
    (ofResult r).on d = (r, d) := by
  cases r <;> rfl

@[simp] theorem on_ofRegistry (r : Except Registry.Error α) (d : Document) :
    (ofRegistry r).on d = (r.mapError DocumentError.ofRegistry, d) :=
  on_ofResult _ d

@[simp] theorem on_ofValidation (r : Except ValidationError α) (d : Document) :
    (ofValidation r).on d = (r.mapError DocumentError.validation, d) :=
  on_ofResult _ d

/-- The second step runs on what the first one leaves, unless the first one fails. -/
theorem on_bind (x : Edit α) (k : α → Edit β) (d : Document) :
    Edit.on (x >>= k) d
      = match x.on d with
        | (.ok a, d') => (k a).on d'
        | (.error e, d') => (.error e, d') := by
  rw [on, ExceptT.run_bind, StateT.run_bind]
  rcases hx : x.on d with ⟨_ | a, d'⟩ <;> rw [on] at hx <;> simp [on, hx]

/-- The second step runs on what a first one leaves that succeeds. -/
theorem on_bind_ok {x : Edit α} {d d' : Document} {a : α} (h : x.on d = (.ok a, d'))
    (k : α → Edit β) : Edit.on (x >>= k) d = (k a).on d' := by
  rw [on_bind, h]

/-- Nothing runs after a step that fails. -/
theorem on_bind_error {x : Edit α} {d d' : Document} {e : DocumentError}
    (h : x.on d = (.error e, d')) (k : α → Edit β) : Edit.on (x >>= k) d = (.error e, d') := by
  rw [on_bind, h]

/-- A registry call decides whether the second step runs at all. -/
theorem on_ofRegistry_bind (r : Except Registry.Error α) (k : α → Edit β) (d : Document) :
    Edit.on (ofRegistry r >>= k) d
      = match r with
        | .ok a => (k a).on d
        | .error e => (.error (.ofRegistry e), d) := by
  rw [on_bind, on_ofRegistry]
  cases r <;> rfl

/-- An edit that only words the answer of another one. -/
theorem on_bind_pure (x : Edit α) (f : α → β) (d : Document) :
    Edit.on (x >>= fun a => pure (f a)) d = ((x.on d).1.map f, (x.on d).2) := by
  rw [on_bind]
  rcases x.on d with ⟨_ | a, d'⟩ <;> rfl

/-- A loop whose steps all succeed folds what they do over the document. -/
theorem on_forM {l : List ι} {f : ι → Edit Unit} {g : Document → ι → Document}
    (h : ∀ i ∈ l, ∀ d, (f i).on d = (.ok (), g d i)) (d : Document) :
    (l.forM f).on d = (.ok (), l.foldl g d) := by
  induction l generalizing d with
  | nil => rfl
  | cons i l ih =>
    have hi := h i List.mem_cons_self d
    show Edit.on (f i >>= fun _ => l.forM f) d = _
    rw [on_bind_ok hi, List.foldl_cons]
    exact ih (fun j hj => h j (List.mem_cons_of_mem i hj)) _

theorem on_appendAll (p : Partition) (l : List Fragment) (d : Document) :
    (appendAll p l).on d
      = (.ok (), { d with buffer := d.buffer.replace p (d.buffer.fragments p ++ l) }) := by
  rw [appendAll, on_forM fun fragment _ d => on_append p fragment d]
  induction l generalizing d with
  | nil => simp
  | cons fragment l ih =>
    rw [List.foldl_cons, ih]
    simp [Buffer.append]

end Edit

end Galley
