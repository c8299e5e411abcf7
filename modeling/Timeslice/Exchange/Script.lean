import Timeslice.Exchange.Transport

/-!
# Scripted transports

A transport that answers by rules, whatever the requests ask for. The first rule that fits a request
counts; without one, the answer is an empty response at once.
-/

namespace Timeslice

structure ScriptRule where
  delay : Nat
  answer : Answer

structure Script where
  rules : List (Pattern × ScriptRule)
  served : List Request

namespace Script

def fallback : ScriptRule := ⟨0, .reply (.ok .empty)⟩

def transport : Transport Script Answer where
  arrive s r :=
    let rule := (Pattern.lookup s.rules r).getD fallback
    ({ s with served := s.served ++ [r] }, ⟨rule.answer, rule.delay⟩)
  answer s a := (s, a)
  abandon s _ := s

end Script

end Timeslice
