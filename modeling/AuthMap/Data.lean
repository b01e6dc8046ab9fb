/-! Named texts in order, as a ConfigMap holds them, and the names that matter here. -/

namespace AuthMap

def rolesKey : String := "mapRoles"

def usersKey : String := "mapUsers"

def accountsKey : String := "mapAccounts"

abbrev Data := List (String × String)

namespace Data

def get? (key : String) (d : Data) : Option String := (d.find? fun e => e.1 = key).map (·.2)

/-- Sets a text: one of the same name is replaced where it stands, another goes to the end. -/
def set (key text : String) : Data → Data
  | [] => [(key, text)]
  | e :: d => if e.1 = key then (key, text) :: d else e :: set key text d

def update (d new : Data) : Data := new.foldl (fun d e => set e.1 e.2 d) d

theorem get?_set (k key text : String) (d : Data) :
    (set key text d).get? k = if k = key then some text else d.get? k := by
  induction d with
  | nil => by_cases h : k = key <;> simp [set, get?, h, eq_comm]
  | cons e d ih =>
    unfold set
    split
    · next he => by_cases h : k = key <;> simp_all [get?, eq_comm]
    · next he =>
      by_cases h : e.1 = k
      · have : k ≠ key := fun hk => he (h.trans hk)
        simp [get?, h, this]
      · simpa [get?, h] using ih

end Data

end AuthMap
