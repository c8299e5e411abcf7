import Mathlib.Tactic.Common
import Timeslice.Cluster.Key

/-!
# Keys are linearly ordered

The order of words, of bytes, of key parts and of keys is transitive, and only equal ones have no
order between them.
-/

namespace Timeslice

open Std

instance : TransCmp Cell.wordOrder :=
  inferInstanceAs (TransCmp (compareOn Int64.toInt))

instance : LawfulEqCmp Cell.wordOrder where
  compare_self {a} := ReflOrd.compare_self (a := a.toInt)
  eq_of_compare h := Int64.toInt_inj.mp (LawfulEqOrd.eq_of_compare h)

def byteOrder (a b : UInt8) : Ordering :=
  compare a.toNat b.toNat

instance : TransCmp byteOrder :=
  inferInstanceAs (TransCmp (compareOn UInt8.toNat))

instance : LawfulEqCmp byteOrder where
  compare_self {a} := ReflOrd.compare_self (a := a.toNat)
  eq_of_compare h := UInt8.toNat_inj.mp (LawfulEqOrd.eq_of_compare h)

theorem Cell.bytesOrder_eq : Cell.bytesOrder = List.compareLex byteOrder := by
  funext as bs
  induction as generalizing bs with
  | nil => cases bs <;> rfl
  | cons a as ih =>
    cases bs with
    | nil => rfl
    | cons b bs =>
      rw [Cell.bytesOrder, List.compareLex_cons_cons, ih]
      rfl

instance : TransCmp Cell.bytesOrder := by
  rw [Cell.bytesOrder_eq]
  infer_instance

instance : LawfulEqCmp Cell.bytesOrder := by
  rw [Cell.bytesOrder_eq]
  infer_instance

namespace KeyPart

instance : TransCmp order where
  eq_swap {a b} := by
    have hword : OrientedCmp Cell.wordOrder := inferInstance
    have hbytes : OrientedCmp Cell.bytesOrder := inferInstance
    cases a <;> cases b
    · exact hword.eq_swap
    · rfl
    · rfl
    · exact hbytes.eq_swap
  isLE_trans {a b c} hab hbc := by
    have hword : TransCmp Cell.wordOrder := inferInstance
    have hbytes : TransCmp Cell.bytesOrder := inferInstance
    cases a <;> cases b <;> cases c
    · exact hword.isLE_trans hab hbc
    · rfl
    · cases hbc
    · rfl
    · cases hab
    · cases hab
    · cases hbc
    · exact hbytes.isLE_trans hab hbc

instance : LawfulEqCmp order where
  compare_self {a} := by
    have hword : LawfulEqCmp Cell.wordOrder := inferInstance
    have hbytes : LawfulEqCmp Cell.bytesOrder := inferInstance
    cases a
    · exact hword.compare_self
    · exact hbytes.compare_self
  eq_of_compare {a b} h := by
    have hword : LawfulEqCmp Cell.wordOrder := inferInstance
    have hbytes : LawfulEqCmp Cell.bytesOrder := inferInstance
    cases a <;> cases b
    · exact congrArg number (hword.eq_of_compare h)
    · cases h
    · cases h
    · exact congrArg bytes (hbytes.eq_of_compare h)

end KeyPart

theorem Key.order_eq : Key.order = List.compareLex KeyPart.order := by
  funext as bs
  induction as generalizing bs with
  | nil => cases bs <;> rfl
  | cons a as ih =>
    cases bs with
    | nil => rfl
    | cons b bs => rw [Key.order, List.compareLex_cons_cons, ih]

instance : TransCmp Key.order := by
  rw [Key.order_eq]
  infer_instance

instance : LawfulEqCmp Key.order := by
  rw [Key.order_eq]
  infer_instance

theorem Key.order_self (key : Key) : Key.order key key = .eq :=
  ReflCmp.compare_self

theorem Key.eq_of_order {a b : Key} (h : Key.order a b = .eq) : a = b :=
  LawfulEqCmp.eq_of_compare h

end Timeslice
