import FilterSql.Encoding.Base64Url

/-!
# Decoding what was encoded

Every sequence of octets is read back from its text (`Base64Url.decode?_encode`): the six bits of a
group are read back from their character, and the octets from their groups.
-/

namespace FilterSql.Base64Url

/-- Six bits are read back from their character. -/
theorem value?_digit {n : Nat} (h : n < 64) : value? (digit n) = some n := by
  have hall : ∀ n < 64, value? (digit n) = some n := by decide
  exact hall n h

/-- An octet is told by any number that has it as its last eight bits. -/
theorem ofNat_eq {n : Nat} {a : UInt8} (h : n % 256 = a.toNat) : UInt8.ofNat n = a := by
  rw [← UInt8.toNat_inj, UInt8.toNat_ofNat']
  exact h

/-- A group has six bits. -/
theorem groups_lt (octets : List UInt8) : ∀ n ∈ groups octets, n < 64 := by
  fun_induction groups octets with
  | case1 a b c rest n ih =>
      have ha := a.toNat_lt
      have hb := b.toNat_lt
      have hc := c.toNat_lt
      have hn : n = a.toNat * 65536 + b.toNat * 256 + c.toNat := rfl
      simp only [List.forall_mem_cons]
      exact ⟨by omega, by omega, by omega, by omega, ih⟩
  | case2 a b n =>
      have ha := a.toNat_lt
      have hb := b.toNat_lt
      have hn : n = a.toNat * 256 + b.toNat := rfl
      simp only [List.forall_mem_cons]
      exact ⟨by omega, by omega, by omega, by simp⟩
  | case3 a =>
      have ha := a.toNat_lt
      simp only [List.forall_mem_cons]
      exact ⟨by omega, by omega, by simp⟩
  | case4 => simp

/-- Octets are read back from their groups; the unused bits of the last group are zero. -/
theorem octets?_groups (octets : List UInt8) : octets? (groups octets) = some octets := by
  fun_induction groups octets with
  | case1 a b c rest n ih =>
      have ha := a.toNat_lt
      have hb := b.toNat_lt
      have hc := c.toNat_lt
      have hn : n = a.toNat * 65536 + b.toNat * 256 + c.toNat := rfl
      clear_value n
      have hwhole : n / 262144 * 262144 + n / 4096 % 64 * 4096 + n / 64 % 64 * 64 + n % 64 = n := by
        omega
      rw [octets?, hwhole, ih, Option.map_some, ofNat_eq (by omega : n / 65536 % 256 = a.toNat),
        ofNat_eq (by omega : n / 256 % 256 = b.toNat), ofNat_eq (by omega : n % 256 = c.toNat)]
  | case2 a b n =>
      have ha := a.toNat_lt
      have hb := b.toNat_lt
      have hn : n = a.toNat * 256 + b.toNat := rfl
      clear_value n
      have hwhole : n / 1024 * 4096 + n / 16 % 64 * 64 + n % 16 * 4 = 4 * n := by omega
      rw [octets?, if_pos (by omega : n % 16 * 4 % 4 = 0), hwhole,
        ofNat_eq (by omega : 4 * n / 1024 % 256 = a.toNat),
        ofNat_eq (by omega : 4 * n / 4 % 256 = b.toNat)]
  | case3 a =>
      have ha := a.toNat_lt
      have hwhole : (a.toNat / 4 * 64 + a.toNat % 4 * 16) / 16 % 256 = a.toNat := by omega
      rw [octets?, if_pos (by omega : a.toNat % 4 * 16 % 16 = 0), ofNat_eq hwhole]
  | case4 => rfl

/-- Octets are read back from their text. -/
theorem decode?_encode (octets : List UInt8) : decode? (encode octets) = some octets := by
  have hvalues : ∀ ns : List Nat, (∀ n ∈ ns, n < 64) → (ns.map digit).mapM value? = some ns := by
    intro ns hns
    induction ns with
    | nil => rfl
    | cons n ns ih =>
        obtain ⟨hn, hns⟩ := List.forall_mem_cons.1 hns
        rw [List.map_cons, List.mapM_cons, value?_digit hn, ih hns]
        rfl
  rw [decode?, encode, hvalues _ (groups_lt octets)]
  exact octets?_groups octets

end FilterSql.Base64Url
