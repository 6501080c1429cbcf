import RestaurantOs.Payments.RefundedStatus
import RestaurantOs.Payments.OneRefund
import RestaurantOs.Payments.OneCollection
import RestaurantOs.Payments.MoneyMoved
import RestaurantOs.Payments.EventAttempts
import RestaurantOs.Payments.Cancellation
import RestaurantOs.Payments.Kitchen
import RestaurantOs.Billing.EventClaims
import RestaurantOs.Billing.Convergence
import RestaurantOs.Billing.TrialExpiry
import RestaurantOs.Loyalty.Ledger
import RestaurantOs.Loyalty.Clawback
import RestaurantOs.Entitlements.Locations
import RestaurantOs.Entitlements.Liveness
import RestaurantOs.Billing.CheckoutCompletion
import RestaurantOs.Marketplaces.Ingestion
import RestaurantOs.Domains.Holders
import RestaurantOs.Sessions.Rotation
import RestaurantOs.Connections.Disconnects
import RestaurantOs.Connections.StaysDisconnected
import RestaurantOs.Deliveries.Redelivery
import RestaurantOs.Imports.SafeUrlFetch
import RestaurantOs.Imports.Review
import RestaurantOs.Imports.JobEnds
import RestaurantOs.Support.History
import RestaurantOs.Memberships.ActiveOwner
import RestaurantOs.Memberships.Invitations
import RestaurantOs.Promotions.Codes
import RestaurantOs.Analytics.Trends
import RestaurantOs.Themes.KeptEdits
import RestaurantOs.Accounts.EmailProofs
import RestaurantOs.Accounts.Closed
import RestaurantOs.MenuEdits.Categories
import RestaurantOs.MenuEdits.Limits
import RestaurantOs.MenuEdits.FreshListings
import RestaurantOs.Menus.Selections
import RestaurantOs.Staff.Access
import RestaurantOs.Promotions.Totals
import RestaurantOs.Deliveries.OneParty
import RestaurantOs.Printing.OneDefault
import RestaurantOs.Imports.RetriedImport
import RestaurantOs.Imports.SecondImport
import RestaurantOs.Imports.RowsRead
import RestaurantOs.Connections.OAuthOnce
import RestaurantOs.Agencies.BusinessSlots
import RestaurantOs.Connections.OneLink
import RestaurantOs.Accounts.Addresses
import RestaurantOs.Carts.Register
import RestaurantOs.Carts.Cart
import RestaurantOs.Deliveries.PhoneNumbers
import RestaurantOs.Ordering.ZonedTimes
import RestaurantOs.Domains.Hostnames
import RestaurantOs.Imports.Prices
import RestaurantOs.Printing.Escpos
import RestaurantOs.Billing.PriceLoading
import RestaurantOs.Deliveries.TokenCache
import RestaurantOs.Payments.Records
import RestaurantOs.Payments.RefundLookup
import RestaurantOs.Marketplaces.ServiceHours
import RestaurantOs.Ordering.PaymentMethods
