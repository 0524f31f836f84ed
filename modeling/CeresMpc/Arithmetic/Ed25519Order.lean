import CeresMpc.Arithmetic.Primality
import CeresMpc.Libraries

/-!
# The ed25519 group order is prime
-/

set_option autoImplicit false

namespace CeresMpc

open Arithmetic

def ed25519OrderCertificate : List (Nat × Nat × List Nat) :=
  [(7237005577332262213973186563042994240857116359379907606001950938285454250989, 2,
      [2, 2, 3, 11, 198211423230930754013084525763697, 276602624281642239937218680557139826668747]),
    (276602624281642239937218680557139826668747, 2, [2, 7, 19757330305831588566944191468367130476339]),
    (19757330305831588566944191468367130476339, 2, [2, 269, 213441916511, 172054593956031949258510691]),
    (198211423230930754013084525763697, 5, [2, 2, 2, 2, 3, 23, 58964693, 3044861653679985063343]),
    (172054593956031949258510691, 2, [2, 5, 1361, 2851, 4434155615661930479]),
    (3044861653679985063343, 5, [2, 3, 11, 30703, 82163, 132667, 137849]),
    (4434155615661930479, 17, [2, 41, 43, 1257559732178653]),
    (1257559732178653, 2, [2, 2, 3, 7, 23, 531581, 1224481]), (213441916511, 13, [2, 5, 73, 292386187]),
    (292386187, 2, [2, 3, 3, 3, 3, 307, 5879]), (58964693, 2, [2, 2, 14741173]), (14741173, 2, [2, 2, 3, 3, 409477]),
    (1224481, 13, [2, 2, 2, 2, 2, 3, 5, 2551]), (531581, 2, [2, 2, 5, 7, 3797]), (409477, 2, [2, 2, 3, 34123]),
    (137849, 3, [2, 2, 2, 17231]), (132667, 5, [2, 3, 22111]), (82163, 2, [2, 41081]),
    (41081, 3, [2, 2, 2, 5, 13, 79]), (34123, 2, [2, 3, 11, 11, 47]), (30703, 3, [2, 3, 7, 17, 43]),
    (22111, 6, [2, 3, 5, 11, 67]), (17231, 13, [2, 5, 1723]), (5879, 11, [2, 2939]), (3797, 2, [2, 2, 13, 73]),
    (2939, 2, [2, 13, 113]), (2851, 2, [2, 3, 5, 5, 19]), (2551, 6, [2, 3, 5, 5, 17]), (1723, 3, [2, 3, 7, 41]),
    (1361, 3, [2, 2, 2, 2, 5, 17]), (307, 5, [2, 3, 3, 17]), (269, 2, [2, 2, 67]), (113, 3, [2, 2, 2, 2, 7]),
    (79, 3, [2, 3, 13]), (73, 5, [2, 2, 2, 3, 3]), (67, 2, [2, 3, 11]), (47, 5, [2, 23]), (43, 3, [2, 3, 7]),
    (41, 6, [2, 2, 2, 5]), (23, 5, [2, 11]), (19, 2, [2, 3, 3]), (17, 3, [2, 2, 2, 2]), (13, 2, [2, 2, 3]),
    (11, 2, [2, 5]), (7, 3, [2, 3]), (5, 2, [2, 2]), (3, 2, [2])]

theorem ed25519Order_prime : Nat.Prime ed25519Order := by
  have chain : Chain ed25519OrderCertificate := by decide +kernel
  exact chain.prime _ List.mem_cons_self

end CeresMpc
