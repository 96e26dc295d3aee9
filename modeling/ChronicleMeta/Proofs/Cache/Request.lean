import ChronicleMeta.Cache.Storing

/-! Sequences of requests to a cache, with what each answers and the cache it leaves. -/

namespace ChronicleMeta.Cache

inductive Request where
  | store (chronicle : Chronicle)
  | lookUp (s : Surrogate)
  | lookUpName (fullName : String)
  | clearChronicle (s : Surrogate)
  | clear
  | resetStats

inductive Reply where
  /-- The chronicle stored or found, if there is one. -/
  | chronicle (c : Option Chronicle)
  | dropped (b : Bool)
  | done

def serve (c : Cache) : Request → Outcome Failure Cache Reply
  | .store chronicle => (c.store chronicle).map .chronicle
  | .lookUp s => .ok (c.lookUp s).2 (.chronicle (c.lookUp s).1)
  | .lookUpName fullName => .ok (c.lookUpName fullName).2 (.chronicle (c.lookUpName fullName).1)
  | .clearChronicle s => (c.clearChronicle s).map .dropped
  | .clear => .ok c.clear .done
  | .resetStats => .ok c.resetStats .done

def run (c : Cache) (rs : List Request) : Cache := rs.foldl (fun c r => (c.serve r).state) c

/-- A cache that nothing has been stored in. -/
def empty (capacity : Nat) (h : 0 < capacity) : Cache := { capacity, capacity_pos := h }

/-- What holds at first and is kept by every request holds after all of them. -/
theorem run_invariant {P : Cache → Prop} (hstep : ∀ c r, P c → P (c.serve r).state) {c : Cache}
    (h : P c) (rs : List Request) : P (c.run rs) := by
  induction rs generalizing c with
  | nil => exact h
  | cons r rs ih => exact ih (hstep c r h)

end ChronicleMeta.Cache
