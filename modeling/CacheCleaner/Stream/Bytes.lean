import CacheCleaner.Effect.Program

namespace Stream

open Effect

inductive Arrival where
  | bytes (first : UInt8) (more : List UInt8)
  | interrupted

def Arrival.content : Arrival → List UInt8
  | .bytes first more => first :: more
  | .interrupted => []

def content (arrivals : List Arrival) : List UInt8 := arrivals.flatMap Arrival.content

def pending : List UInt8 → List Arrival
  | [] => []
  | first :: more => [.bytes first more]

theorem content_pending : content (pending rest) = rest := by
  cases rest <;> simp [pending, content, Arrival.content]

theorem content_append : content (before ++ after) = content before ++ content after :=
  List.flatMap_append

/-- Reads until `count` bytes are there; none when the stream ends before. -/
def readExact : Nat → List Arrival → Option (List UInt8) × List Arrival
  | 0, arrivals => (some [], arrivals)
  | _ + 1, [] => (none, [])
  | count + 1, .interrupted :: arrivals => readExact (count + 1) arrivals
  | count + 1, .bytes first more :: arrivals =>
    if count < more.length then
      (some (first :: more.take count), pending (more.drop count) ++ arrivals)
    else
      match readExact (count - more.length) arrivals with
      | (some rest, left) => (some (first :: more ++ rest), left)
      | (none, left) => (none, left)

theorem readExact_content (arrivals : List Arrival) (taken rest : List UInt8)
    (whole : content arrivals = taken ++ rest) :
    ∃ left, readExact taken.length arrivals = (some taken, left) ∧ content left = rest := by
  induction arrivals generalizing taken with
  | nil =>
    obtain ⟨rfl, rfl⟩ := List.append_eq_nil_iff.mp whole.symm
    exact ⟨[], rfl, rfl⟩
  | cons arrival arrivals ih =>
    cases taken with
    | nil => exact ⟨arrival :: arrivals, rfl, whole⟩
    | cons first taken =>
      cases arrival with
      | interrupted => exact ih (first :: taken) whole
      | bytes head more =>
        obtain ⟨rfl, tails⟩ : head = first ∧
            more ++ content arrivals = taken ++ rest := List.cons.inj whole
        rw [List.length_cons, readExact]
        -- the piece ends within what is asked for, or goes past it
        rcases List.append_eq_append_iff.mp tails with
          ⟨others, rfl, later⟩ | ⟨beyond, rfl, rfl⟩
        · obtain ⟨left, read, remains⟩ := ih others later
          have count : (more ++ others).length - more.length = others.length := by
            rw [List.length_append, Nat.add_sub_cancel_left]
          rw [if_neg (by rw [List.length_append]; omega), count, read]
          exact ⟨left, rfl, remains⟩
        · cases beyond with
          | nil =>
            rw [List.append_nil, if_neg (Nat.lt_irrefl _), Nat.sub_self]
            exact ⟨arrivals, by simp [readExact], rfl⟩
          | cons next beyond =>
            rw [if_pos (by rw [List.length_append, List.length_cons]; omega),
              List.take_left, List.drop_left]
            exact ⟨_, rfl, by rw [content_append, content_pending]⟩

def toBeBytes (value : Nat) : List UInt8 :=
  [.ofNat (value / 2 ^ 24), .ofNat (value / 2 ^ 16), .ofNat (value / 2 ^ 8), .ofNat value]

def fromBeBytes (bytes : List UInt8) : Nat :=
  bytes.foldl (fun value byte => value * 256 + byte.toNat) 0

theorem fromBeBytes_toBeBytes {value : Nat} (small : value < 2 ^ 32) :
    fromBeBytes (toBeBytes value) = value := by
  simp only [toBeBytes, fromBeBytes, List.foldl_cons, List.foldl_nil, UInt8.toNat_ofNat']
  omega

end Stream
